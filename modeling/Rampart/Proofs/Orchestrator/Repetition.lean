import Rampart.Proofs.Orchestrator.Pulling

/-!
# Alerts that are pulled again

A pull reaches back over hours that earlier pulls have covered, so that the same alerts come again
and again. What keeps them from being recorded twice is what their feed still holds.

* `Alert.Spaced`: between two alerts of an application that share a number there are so many others
  of it. `Holds.spaced_after` and `History.spaced`: this is so of everything that is ever accepted,
  with as many as a feed may have.
* `accepted_eq_nil_iff`: alerts that come in change nothing exactly if each repeats an entry.
* `AlertFeeds.HasRoom`: nothing is dropped while alerts come in. `HasRoom.refuses_after`: then each
  of them is refused when it comes again.
* **`accepted_again_only_if_dropped`**: all of this for two pulls in a row, after any others.
-/

namespace Rampart

open Execution

/-! ## Alerts that share a number -/

/-- Between two alerts of an application that share a number there are so many others of it. -/
def Alert.Spaced (capacity : Nat) (taken : List Alert) : Prop :=
  ∀ before a middle b after, taken = before ++ a :: (middle ++ b :: after) → a.uuid = b.uuid →
    a.SharesNumber b → capacity ≤ (middle.filter (·.uuid = a.uuid)).length

theorem Alert.Spaced.nil (capacity : Nat) : Alert.Spaced capacity [] := by
  intro before a middle b after heq
  cases List.append_eq_nil_iff.mp heq.symm |>.2

namespace AlertFeeds

open Alert

variable {f : AlertFeeds} {taken alerts : List Alert} {alert : Alert}

/-- An entry is there until so many have come after it. -/
theorem mem_newest {capacity : Nat} (earlier : List Alert) (entry : Alert) {later : List Alert}
    (h : later.length < capacity) : entry ∈ newest capacity (earlier ++ entry :: later) := by
  have hle : (earlier ++ entry :: later).length - capacity ≤ earlier.length := by
    rw [List.length_append, List.length_cons]
    omega
  rw [newest, List.drop_append_of_le_length hle]
  exact List.mem_append_right _ List.mem_cons_self

/-- An alert is accepted only after its earlier copy has been dropped. -/
theorem Holds.spaced_record (h : Holds f taken) (hspaced : Spaced f.capacity taken)
    (alert : Alert) : Spaced f.capacity (taken ++ (f.record alert).1.toList) := by
  cases hrefuses : f.refuses alert with
  | true =>
    rw [record_of_refuses hrefuses, Option.toList_none, List.append_nil]
    exact hspaced
  | false =>
    rw [(record_of_not_refuses hrefuses).1, Option.toList_some]
    intro before a middle b after heq huuid hnumber
    rcases List.eq_nil_or_concat after with rfl | ⟨after, last, rfl⟩
    · -- The later one is the alert that has just come in.
      have hsplit : taken ++ [f.numbered alert] = (before ++ a :: middle) ++ [b] := by
        rw [heq, List.append_assoc, List.cons_append]
      obtain ⟨rfl, hb⟩ := List.append_inj' hsplit rfl
      obtain rfl := List.singleton_inj.mp hb
      by_contra hfew
      have hmem : a ∈ f.feed alert.uuid := by
        have huuid' : alert.uuid = a.uuid := huuid.symm
        have hfilter : (a :: middle).filter (·.uuid = a.uuid) =
            a :: middle.filter (·.uuid = a.uuid) := List.filter_cons_of_pos (decide_eq_true rfl)
        rw [h.feed_eq_newest, huuid', List.filter_append, hfilter]
        exact mem_newest _ a (Nat.lt_of_not_le hfew)
      have hrepeats : Repeats (f.window * 1000000000) a alert := .inl hnumber
      exact ne_true_of_eq_false hrefuses (refuses_iff.mpr ⟨a, hmem, hrepeats⟩)
    · have hsplit : taken ++ [f.numbered alert] =
          (before ++ a :: (middle ++ b :: after)) ++ [last] := by
        rw [heq]
        simp only [List.concat_eq_append, List.append_assoc, List.cons_append]
      exact hspaced before a middle b after (List.append_inj' hsplit rfl).1 huuid hnumber

theorem Holds.spaced_after (h : Holds f taken) (hspaced : Spaced f.capacity taken)
    (alerts : List Alert) : Spaced f.capacity (taken ++ f.accepted alerts) := by
  induction alerts generalizing f taken with
  | nil =>
    rw [accepted, List.append_nil]
    exact hspaced
  | cons alert alerts ih =>
    have hcapacity : (f.record alert).2.capacity = f.capacity := capacity_record
    have hstep := h.spaced_record hspaced alert
    rw [accepted, ← List.append_assoc]
    rw [← hcapacity] at hstep ⊢
    exact ih (h.record alert) hstep

/-! ## Alerts that come again -/

/-- Nothing is accepted exactly if every alert repeats an entry. -/
theorem accepted_eq_nil_iff :
    f.accepted alerts = [] ↔ ∀ alert ∈ alerts, f.refuses alert = true := by
  induction alerts generalizing f with
  | nil => simp [accepted]
  | cons alert alerts ih =>
    rw [accepted, List.append_eq_nil_iff, List.forall_mem_cons]
    cases hrefuses : f.refuses alert with
    | true =>
      rw [record_of_refuses hrefuses, ih]
      simp
    | false =>
      rw [(record_of_not_refuses hrefuses).1]
      simp

theorem after_of_refuses (h : ∀ alert ∈ alerts, f.refuses alert = true) : f.after alerts = f := by
  induction alerts with
  | nil => rfl
  | cons alert alerts ih =>
    obtain ⟨halert, halerts⟩ := List.forall_mem_cons.mp h
    rw [after, List.foldl_cons, record_of_refuses halert]
    exact ih halerts

/-- The feeds have room for what is accepted of alerts that come in. -/
def HasRoom (f : AlertFeeds) (alerts : List Alert) : Prop :=
  ∀ uuid, (f.feed uuid).length + ((f.accepted alerts).filter (·.uuid = uuid)).length ≤ f.capacity

theorem newest_of_length_le {capacity : Nat} {entries : List Alert}
    (h : entries.length ≤ capacity) : newest capacity entries = entries := by
  rw [newest, Nat.sub_eq_zero_of_le h, List.drop_zero]

/-- Where there is room, an alert that is accepted stands behind all entries, and there is still
room for the others. -/
theorem HasRoom.record (h : f.HasRoom (alert :: alerts)) :
    (f.record alert).2.HasRoom alerts ∧
      ∀ uuid, (f.record alert).2.feed uuid =
        f.feed uuid ++ (f.record alert).1.toList.filter (·.uuid = uuid) := by
  have hfeed : ∀ uuid, (f.record alert).2.feed uuid =
      f.feed uuid ++ (f.record alert).1.toList.filter (·.uuid = uuid) := by
    intro uuid
    cases hrefuses : f.refuses alert with
    | true =>
      rw [record_of_refuses hrefuses, Option.toList_none, List.filter_nil, List.append_nil]
    | false =>
      obtain ⟨hanswer, -, hfeed⟩ := record_of_not_refuses hrefuses
      rw [hanswer, hfeed, Option.toList_some]
      by_cases huuid : alert.uuid = uuid
      · have hroom := h uuid
        have hself : [f.numbered alert].filter (·.uuid = uuid) = [f.numbered alert] :=
          List.filter_cons_of_pos (decide_eq_true huuid)
        rw [accepted, hanswer, Option.toList_some, List.filter_append, hself,
          List.length_append, List.length_singleton] at hroom
        rw [if_pos huuid, hself, newest_of_length_le]
        rw [List.length_append, List.length_singleton]
        omega
      · have hother : [f.numbered alert].filter (·.uuid = uuid) = [] :=
          List.filter_cons_of_neg fun heq => huuid (of_decide_eq_true heq)
        rw [if_neg huuid, hother, List.append_nil]
  refine ⟨fun uuid => ?_, hfeed⟩
  have hroom := h uuid
  rw [accepted, List.filter_append, List.length_append] at hroom
  rw [hfeed, capacity_record, List.length_append]
  omega

theorem HasRoom.subset_feed_after (h : f.HasRoom alerts) (uuid : String) :
    f.feed uuid ⊆ (f.after alerts).feed uuid := by
  induction alerts generalizing f with
  | nil => exact List.Subset.refl _
  | cons alert alerts ih =>
    obtain ⟨hroom, hfeed⟩ := h.record
    refine List.Subset.trans ?_ (ih hroom)
    rw [hfeed]
    exact List.subset_append_left _ _

/-- Where there is room, an alert with a number is refused when it comes again: for what it was
refused for the first time, or for itself. -/
theorem HasRoom.refuses_after (h : f.HasRoom alerts) (hmem : alert ∈ alerts)
    (hnumber : alert.engineAlertId ≠ 0) : (f.after alerts).refuses alert = true := by
  induction alerts generalizing f with
  | nil => exact absurd hmem List.not_mem_nil
  | cons first alerts ih =>
    obtain ⟨hroom, hfeed⟩ := h.record
    rcases List.mem_cons.mp hmem with rfl | hmem
    · have hentry : ∃ entry ∈ (f.record alert).2.feed alert.uuid,
          Repeats (f.window * 1000000000) entry alert := by
        cases hrefuses : f.refuses alert with
        | true =>
          rw [record_of_refuses hrefuses]
          exact refuses_iff.mp hrefuses
        | false =>
          refine ⟨f.numbered alert, ?_, .inl ⟨rfl, rfl, hnumber⟩⟩
          rw [hfeed, (record_of_not_refuses hrefuses).1, Option.toList_some]
          exact List.mem_append_right _ (List.mem_filter.mpr ⟨List.mem_singleton_self _,
            decide_eq_true rfl⟩)
      obtain ⟨entry, hentry, hrepeats⟩ := hentry
      refine refuses_iff.mpr ⟨entry, hroom.subset_feed_after _ hentry, ?_⟩
      rw [window_after]
      exact hrepeats
    · exact ih hroom hmem

end AlertFeeds

/-! ## Histories and pulls -/

open AlertFeeds (Holds)

/-- What holds of the feeds, and the distance of equal numbers, hold on after any history. -/
theorem History.spaced {s t : Orchestrator} {old taken : List Alert} (h : History s taken t)
    (hs : Holds s.feeds old) (hspaced : Alert.Spaced s.feeds.capacity old) :
    Holds t.feeds (old ++ taken) ∧ Alert.Spaced t.feeds.capacity (old ++ taken) := by
  induction h with
  | refl =>
    rw [List.append_nil]
    exact ⟨hs, hspaced⟩
  | visit _ server now alerts ih =>
    obtain ⟨hholds, hspaced⟩ := ih
    rw [Orchestrator.keepAlerts_eq, ← List.append_assoc]
    refine ⟨hholds.after _, ?_⟩
    have hcapacity : ∀ (s : Orchestrator) (entries : List Alert),
        (s.fed entries).feeds.capacity = s.feeds.capacity := fun s entries =>
      AlertFeeds.capacity_after entries
    rw [hcapacity]
    exact hholds.spaced_after hspaced _
  | other _ hsame ih =>
    rw [hsame]
    exact ih

/-- How long a feed may be and what counts as near never change. -/
theorem History.limits_eq {s t : Orchestrator} {taken : List Alert} (h : History s taken t) :
    t.feeds.capacity = s.feeds.capacity ∧ t.feeds.window = s.feeds.window := by
  induction h with
  | refl => exact ⟨rfl, rfl⟩
  | visit _ server now alerts ih =>
    rw [Orchestrator.keepAlerts_eq]
    exact ⟨(AlertFeeds.capacity_after _).trans ih.1, (AlertFeeds.window_after _).trans ih.2⟩
  | other _ hsame ih =>
    rw [hsame]
    exact ih

namespace Orchestrator.IsRound

variable {s : Orchestrator} {answer : Server → Remote.Call → Except Failure String}
  {visits : List Visit}

/-- Where all alerts tell their times, it does not matter when they are pulled. -/
theorem gathered_eq (h : s.IsRound answer visits)
    (htimes : ∀ server ∈ s.engineServers, ∀ alert ∈ heard (answer server s.alertsCall),
      alert.createdAt.isSome = true) :
    s.gathered visits = s.engineServers.flatMap fun server =>
      s.attributed server.id default (heard (answer server s.alertsCall)) := by
  rw [← h.servers, List.flatMap_map]
  refine List.flatMap_congr fun v hv => ?_
  rw [h.alerts v hv]
  refine List.filterMap_congr fun alert halert => ?_
  have hserver : v.server ∈ s.engineServers := h.servers ▸ List.mem_map_of_mem hv
  unfold attributed?
  congr 1
  funext application
  exact Alert.ofEngine?_eq_of_createdAt (htimes v.server hserver alert halert) default

/-- Every alert that goes to an application is one that was heard. -/
theorem exists_of_mem_gathered (h : s.IsRound answer visits) {entry : Alert}
    (hentry : entry ∈ s.gathered visits) :
    ∃ server ∈ s.engineServers, ∃ alert ∈ heard (answer server s.alertsCall), ∃ time,
      s.attributed? server.id time alert = some entry := by
  obtain ⟨v, hv, hattributed⟩ := List.mem_flatMap.mp hentry
  obtain ⟨alert, halert, heq⟩ := List.mem_filterMap.mp hattributed
  exact ⟨v.server, h.servers ▸ List.mem_map_of_mem hv, alert, h.alerts v hv ▸ halert, v.time, heq⟩

end Orchestrator.IsRound

namespace AlertSync

variable {answer : Server → Remote.Call → Except Failure String} {w w' w₁ w₂ : Shared Unit}
  {n n₁ n₂ : Nat}

/-- **An alert is accepted again only if it was dropped.** Take two pulls in a row, after any other
visits of servers, while the engines tell the same and all else stays as it is. In all that was
ever accepted, there are between two alerts of an application that share a number at least as many
others of that application as a feed may have. The second pull accepts nothing, and leaves all
feeds as they are, exactly if each alert that goes to an application repeats an entry of its feed.
That is so if no feed was too short for the first pull and every alert has a number and a time. -/
theorem accepted_again_only_if_dropped {settings : Settings.Alerts} {start : Orchestrator}
    {taken : List Alert} (hstart : start.feeds = .ofSettings settings)
    (hhistory : History start taken w.state) (hfirst : Alone (.steady answer) w pull w₁ n₁)
    (hsecond : Alone (.steady answer) w₁ pull w₂ n₂) :
    ∃ visits again : List Visit,
      Pulled answer w.state visits w₁.state n₁ ∧ Pulled answer w₁.state again w₂.state n₂ ∧
      Alert.Spaced (max settings.maxPerApplication.toNat 1)
        (taken ++ w.state.feeds.accepted (w.state.gathered visits) ++
          w₁.state.feeds.accepted (w₁.state.gathered again)) ∧
      (n₂ = 0 ↔ ∀ alert ∈ w₁.state.gathered again, ∃ entry ∈ w₁.state.feeds.feed alert.uuid,
        Alert.Repeats (AlertFeeds.signedSeconds settings.dedupeWindow * 1000000000)
          entry alert) ∧
      (n₂ = 0 → w₂.state.feeds = w₁.state.feeds) ∧
      (w.state.feeds.HasRoom (w.state.gathered visits) →
        (∀ server ∈ w.state.engineServers, ∀ alert ∈ heard (answer server w.state.alertsCall),
          alert.id ≠ 0 ∧ alert.createdAt.isSome = true) →
        n₂ = 0) := by
  obtain ⟨visits, hvisits, -⟩ := alone_pull_iff.mp hfirst
  obtain ⟨again, hagain, -⟩ := alone_pull_iff.mp hsecond
  have hbefore := hhistory.trans hvisits.history
  have hnothing : n₂ = 0 ↔
      ∀ alert ∈ w₁.state.gathered again, w₁.state.feeds.refuses alert = true := by
    rw [hagain.count, List.length_eq_zero_iff, AlertFeeds.accepted_eq_nil_iff]
  refine ⟨visits, again, hvisits, hagain, ?_, ?_, fun hn => ?_, fun hroom htold => ?_⟩
  · have hholds := AlertFeeds.Holds.ofSettings settings
    rw [← hstart] at hholds
    have hspaced := ((hbefore.trans hagain.history).spaced hholds (.nil _)).2
    rw [(hbefore.trans hagain.history).limits_eq.1, hstart, List.nil_append] at hspaced
    exact hspaced
  · simp only [hnothing, AlertFeeds.refuses_iff, hbefore.limits_eq.2, hstart]
    rfl
  · rw [hagain.feeds, AlertFeeds.after_of_refuses (hnothing.mp hn)]
  · have hround : w.state.IsRound answer again := by
      have hround := hagain.round
      rw [hvisits.state] at hround
      exact ⟨hround.servers, hround.alerts⟩
    have hgathered : w₁.state.gathered = w.state.gathered := by
      rw [hvisits.state]
      rfl
    have htimes : ∀ server ∈ w.state.engineServers,
        ∀ alert ∈ heard (answer server w.state.alertsCall), alert.createdAt.isSome = true :=
      fun server hserver alert halert => (htold server hserver alert halert).2
    have hsame : w₁.state.gathered again = w.state.gathered visits := by
      rw [hgathered, hround.gathered_eq htimes, hvisits.round.gathered_eq htimes]
    refine hnothing.mpr fun alert halert => ?_
    rw [hsame] at halert
    rw [hvisits.feeds]
    refine hroom.refuses_after halert ?_
    obtain ⟨server, hserver, heardOf, hheard, time, hattributed⟩ :=
      hvisits.round.exists_of_mem_gathered halert
    obtain ⟨application, -, hentry⟩ := (w.state.attributed?_eq_some_iff _ _).mp hattributed
    rw [(Alert.of_ofEngine?_eq_some hentry).2.2.2.2]
    exact (htold server hserver heardOf hheard).1

namespace Demo

/-- A server with an engine. -/
def server : Server :=
  { id := 1, name := "one", host := "one.test"
    status := { engineInstalled := true, engineAvailable := true } }

/-- One application on it, and feeds of some length. -/
def state (capacity : UInt64) : Orchestrator where
  settings := { alerts := { maxPerApplication := capacity } }
  registry := ⟨[server]⟩
  store := {
    applications := ⟨[(1, { id := 1, uuid := "abc", name := "shop", serverId := 1 })]⟩
    byUuid := ⟨[("abc", 1)]⟩ }
  feeds := .ofSettings { maxPerApplication := capacity }

/-- Two alerts, of two addresses. -/
def alerts : List Engine.Alert :=
  [{ id := 31, scenario := "bastion/abc/a", source := some { ip := some "10.0.0.1" } },
    { id := 32, scenario := "bastion/abc/a", source := some { ip := some "10.0.0.2" } }]

/-- The engine lists both. -/
def told (_ : Server) (_ : Remote.Call) : Except Failure String :=
  .ok <|
    "[\x7b\"id\":31,\"scenario\":\"bastion/abc/a\",\"source\":\x7b\"ip\":\"10.0.0.1\"\x7d\x7d," ++
      "\x7b\"id\":32,\"scenario\":\"bastion/abc/a\",\"source\":\x7b\"ip\":\"10.0.0.2\"\x7d\x7d]"

theorem heard_told (server : Server) (c : Remote.Call) : heard (told server c) = alerts := by
  have htext : heard (told default (.run [])) = alerts := by decide +kernel
  exact htext

/-- What a pull at midnight brings. -/
def visits : List Visit :=
  [⟨server, default, alerts⟩]

/-- What it does to a state. -/
def pulled (s : Orchestrator) : Orchestrator :=
  (s.fed (s.gathered visits)).count .alertsSynced (s.feeds.accepted (s.gathered visits)).length

theorem alone_pull {s : Orchestrator} (hregistry : s.registry = ⟨[server]⟩) {n : Nat}
    (hn : (s.feeds.accepted (s.gathered visits)).length = n) :
    Alone (.steady told) ⟨s, [], ()⟩ pull ⟨pulled s, [], ()⟩ n := by
  have hround : s.IsRound told visits := by
    refine ⟨?_, fun v hv => ?_⟩
    · rw [Orchestrator.engineServers, hregistry]
      decide +kernel
    · rw [List.mem_singleton.mp hv, heard_told]
  subst hn
  exact alone_pull_iff.mpr ⟨visits, ⟨hround, rfl, rfl⟩, rfl⟩

end Demo

/-- Feeds of two alerts hold both, so that the second pull accepts nothing. -/
theorem accepted_again_only_if_dropped_two_alerts :
    ∃ w₁ w₂, Alone (.steady Demo.told) ⟨Demo.state 2, [], ()⟩ pull w₁ 2 ∧
      Alone (.steady Demo.told) w₁ pull w₂ 0 ∧ w₂.state.feeds = w₁.state.feeds := by
  have hfirst : Alone (.steady Demo.told) ⟨Demo.state 2, [], ()⟩ pull
      ⟨Demo.pulled (Demo.state 2), [], ()⟩ 2 := Demo.alone_pull rfl (by decide +kernel)
  have hsecond : Alone (.steady Demo.told) ⟨Demo.pulled (Demo.state 2), [], ()⟩ pull
      ⟨Demo.pulled (Demo.pulled (Demo.state 2)), [], ()⟩ 0 :=
    Demo.alone_pull rfl (by decide +kernel)
  have hstart : (Demo.state 2).feeds = .ofSettings { maxPerApplication := 2 } := rfl
  obtain ⟨visits, again, -, -, -, -, hsame, -⟩ := accepted_again_only_if_dropped hstart
    (.refl (Demo.state 2)) hfirst hsecond
  exact ⟨_, _, hfirst, hsecond, hsame rfl⟩

/-- **An unchanged listing is recorded again.** A feed of one alert has dropped the first by the
time the second is accepted, and the next pull accepts both again. -/
theorem unchanged_listing_accepted_again :
    ¬ ∀ (answer : Server → Remote.Call → Except Failure String) (w w₁ w₂ : Shared Unit)
      (n₁ n₂ : Nat), w.state.feeds = .ofSettings w.state.settings.alerts →
      (∀ server ∈ w.state.engineServers,
        ((heard (answer server w.state.alertsCall)).map (·.id)).Nodup ∧
          ∀ alert ∈ heard (answer server w.state.alertsCall), alert.id ≠ 0) →
      Alone (.steady answer) w pull w₁ n₁ → Alone (.steady answer) w₁ pull w₂ n₂ →
      n₂ = 0 ∧ w₂.state.feeds = w₁.state.feeds := by
  intro h
  have hfirst : Alone (.steady Demo.told) ⟨Demo.state 1, [], ()⟩ pull
      ⟨Demo.pulled (Demo.state 1), [], ()⟩ 2 := Demo.alone_pull rfl (by decide +kernel)
  have hsecond : Alone (.steady Demo.told) ⟨Demo.pulled (Demo.state 1), [], ()⟩ pull
      ⟨Demo.pulled (Demo.pulled (Demo.state 1)), [], ()⟩ 2 :=
    Demo.alone_pull rfl (by decide +kernel)
  have hnumbers : ∀ server ∈ (Demo.state 1).engineServers,
      ((heard (Demo.told server (Demo.state 1).alertsCall)).map (·.id)).Nodup ∧
        ∀ alert ∈ heard (Demo.told server (Demo.state 1).alertsCall), alert.id ≠ 0 := by
    intro server _
    rw [Demo.heard_told]
    decide +kernel
  exact absurd (h _ _ _ _ _ _ rfl hnumbers hfirst hsecond).1 (by decide)

end AlertSync

end Rampart
