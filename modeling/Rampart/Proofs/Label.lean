import Mathlib.Data.List.Flatten
import Rampart.Label
import Rampart.Proofs.Scenario.Names
import Rampart.Proofs.Table
import Rampart.Proofs.Text.Piece

/-!
# The labels of an application

The key of a label is put together from the name of a middleware and the name of a setting, and the
name of a middleware from a namespace and a uuid; namespaces and uuids may hold hyphens and full
stops. The names of settings hold none, so a key can be taken apart from its end.

* `LabelSet.keyOf_inj`: a key tells the middleware and the setting.
* `LabelMaker.parts`: the middlewares of an application with their settings;
  **`LabelMaker.mem_labels_iff`**: the labels are those of the settings.
* `LabelMaker.nodup_keys`: keys are told apart.
* `LabelSet.cut_line_iff`: when a line can be cut into key and value.
* **`LabelMaker.labels_all_or_nothing`**: all of it, where neither namespace begins the other.
-/

namespace Rampart

namespace LabelSet

/-- The key of a middleware's setting. -/
def keyOf (middleware setting : String) : String :=
  let base := s!"traefik.http.middlewares.{middleware}.plugin.bouncer"
  s!"{base}.{setting}"

/-- The keys of a set, in order. -/
def keys (s : LabelSet) : List String :=
  s.labels.map Prod.fst

/-- A middleware owns the keys of its settings, whose names hold no full stop. -/
def Owns (middleware key : String) : Prop :=
  ∃ setting, '.' ∉ setting.toList ∧ key = keyOf middleware setting

theorem addMiddleware_labels (s : LabelSet) (middleware : String)
    (settings : List (String × String)) :
    (s.addMiddleware middleware settings).labels =
      s.labels ++ settings.map fun (name, value) => (keyOf middleware name, value) := rfl

theorem toList_keyOf (middleware setting : String) :
    (keyOf middleware setting).toList =
      "traefik.http.middlewares.".toList ++ (middleware.toList ++ ".plugin.bouncer".toList) ++
        '.' :: setting.toList := by
  have h : keyOf middleware setting =
      "traefik.http.middlewares." ++ middleware ++ ".plugin.bouncer" ++ "." ++ setting := rfl
  have hstop : ".".toList = ['.'] := rfl
  simp only [h, String.toList_append, hstop, List.append_assoc, List.singleton_append]

/-- **A key tells the middleware and the setting.** -/
theorem keyOf_inj {a b s t : String} (hs : '.' ∉ s.toList) (ht : '.' ∉ t.toList)
    (h : keyOf a s = keyOf b t) : a = b ∧ s = t := by
  have hchars := congrArg String.toList h
  rw [toList_keyOf, toList_keyOf] at hchars
  obtain ⟨hfront, hback⟩ := cut_inj_last hs ht hchars
  have hnames := List.append_cancel_right (List.append_cancel_left hfront)
  exact ⟨String.toList_inj.mp hnames, String.toList_inj.mp hback⟩

/-- What is found under a key is what the set has of it, if it has every key once. -/
theorem get?_eq_some_iff {s : LabelSet} (h : s.keys.Nodup) {key value : String} :
    s.get? key = some value ↔ (key, value) ∈ s.labels := by
  unfold get?
  rw [List.lookup_eq_some_iff]
  constructor
  · rintro ⟨front, back, hlabels, _⟩
    rw [hlabels]
    exact List.mem_append_right front List.mem_cons_self
  · intro hmem
    obtain ⟨front, back, hlabels⟩ := List.append_of_mem hmem
    refine ⟨front, back, hlabels, fun entry hentry => bne_iff_ne.mpr ?_⟩
    rintro rfl
    unfold keys at h
    rw [hlabels, List.map_append, List.map_cons] at h
    exact (List.nodup_append.mp h).2.2 _ (List.mem_map_of_mem hentry) _ List.mem_cons_self rfl

/-- **A line can be cut** at its first equals sign into key and value if the key holds none. -/
theorem cut_line_iff (key value : String) :
    Text.cut? ['='] s!"{key}={value}".toList = some (key.toList, value.toList) ↔
      '=' ∉ key.toList := by
  have h : s!"{key}={value}" = key ++ "=" ++ value := rfl
  have hsign : "=".toList = ['='] := rfl
  rw [Text.cut?_eq_some_iff, h, String.toList_append, String.toList_append, hsign,
    List.append_assoc, List.singleton_append, and_iff_left rfl]

end LabelSet

namespace LabelMaker

open LabelSet (keyOf Owns)

variable {m : LabelMaker} {c d : LabelContext}

/-! ## Middlewares and their settings -/

/-- Neither namespace begins the other, with the hyphen behind it. -/
def AreApart (m : LabelMaker) : Prop :=
  ¬(m.bouncer.middlewareNamespace ++ "-").toList <+: (m.bouncer.appsecNamespace ++ "-").toList ∧
    ¬(m.bouncer.appsecNamespace ++ "-").toList <+: (m.bouncer.middlewareNamespace ++ "-").toList

instance (m : LabelMaker) : Decidable m.AreApart :=
  inferInstanceAs (Decidable (_ ∧ _))

/-- The middlewares of an application, with their settings. -/
def parts (m : LabelMaker) (c : LabelContext) : List (String × List (String × String)) :=
  if c.firewall.isActive then
    (m.bouncerMiddleware c.uuid, m.bouncerSettings c.firewall) ::
      if m.appsecGate c then [(m.appsecMiddleware c.uuid, m.appsecSettings c.firewall)] else []
  else []

theorem middlewares_eq (m : LabelMaker) (c : LabelContext) :
    (m.labels c).middlewares = (m.parts c).map Prod.fst := by
  unfold labels parts
  cases c.firewall.isActive with
  | false => rfl
  | true => cases m.appsecGate c <;> rfl

theorem labels_eq (m : LabelMaker) (c : LabelContext) :
    (m.labels c).labels = (m.parts c).flatMap fun (middleware, settings) =>
      settings.map fun (name, value) => (keyOf middleware name, value) := by
  unfold labels parts
  cases c.firewall.isActive with
  | false => rfl
  | true => cases m.appsecGate c <;> rfl

theorem mem_parts_iff {middleware : String} {settings : List (String × String)} :
    (middleware, settings) ∈ m.parts c ↔ c.firewall.isActive = true ∧
      ((middleware, settings) = (m.bouncerMiddleware c.uuid, m.bouncerSettings c.firewall) ∨
        m.appsecGate c = true ∧
          (middleware, settings) = (m.appsecMiddleware c.uuid, m.appsecSettings c.firewall)) := by
  unfold parts
  cases c.firewall.isActive <;> cases m.appsecGate c <;> simp

theorem part_eq_of_mem_parts {part : String × List (String × String)} (h : part ∈ m.parts c) :
    part = (m.bouncerMiddleware c.uuid, m.bouncerSettings c.firewall) ∨
      part = (m.appsecMiddleware c.uuid, m.appsecSettings c.firewall) :=
  (mem_parts_iff.mp h).2.imp_right And.right

/-- Every setting has a name of its own, which holds neither a full stop nor an equals sign. -/
structure AreNamed (settings : List (String × String)) : Prop where
  nodup : (settings.map Prod.fst).Nodup
  plain : ∀ name ∈ settings.map Prod.fst, '.' ∉ name.toList ∧ '=' ∉ name.toList
  some : settings ≠ []

theorem bouncerSettings_areNamed (m : LabelMaker) (firewall : Firewall) :
    AreNamed (m.bouncerSettings firewall) where
  nodup := by
    change ["enabled", "crowdseclapikey", "crowdseclapihost", "crowdseclapischeme", "crowdsecmode",
      "defaultdecisionseconds", "updateintervalseconds", "loglevel", "forwardedheaderstrustedips",
      "rediscacheenabled", "localcacheenabled", "httptimeoutseconds",
      "remediationstatuscode"].Nodup
    decide
  plain := by
    change ∀ name ∈ ["enabled", "crowdseclapikey", "crowdseclapihost", "crowdseclapischeme",
      "crowdsecmode", "defaultdecisionseconds", "updateintervalseconds", "loglevel",
      "forwardedheaderstrustedips", "rediscacheenabled", "localcacheenabled",
      "httptimeoutseconds", "remediationstatuscode"], _
    decide
  some := List.cons_ne_nil _ _

theorem appsecSettings_areNamed (m : LabelMaker) (firewall : Firewall) :
    AreNamed (m.appsecSettings firewall) where
  nodup := by
    change ["enabled", "crowdseclapikey", "crowdseclapihost", "crowdseclapischeme",
      "crowdsecappsecenabled", "crowdsecappsechost", "crowdsecappsecfailureblock",
      "crowdsecappsecunreachableblock"].Nodup
    decide
  plain := by
    change ∀ name ∈ ["enabled", "crowdseclapikey", "crowdseclapihost", "crowdseclapischeme",
      "crowdsecappsecenabled", "crowdsecappsechost", "crowdsecappsecfailureblock",
      "crowdsecappsecunreachableblock"], _
    decide
  some := List.cons_ne_nil _ _

theorem areNamed_of_mem_parts {part : String × List (String × String)} (h : part ∈ m.parts c) :
    AreNamed part.2 := by
  rcases part_eq_of_mem_parts h with rfl | rfl
  · exact bouncerSettings_areNamed m c.firewall
  · exact appsecSettings_areNamed m c.firewall

/-! ## Names of middlewares -/

theorem toList_bouncerMiddleware (m : LabelMaker) (uuid : String) :
    (m.bouncerMiddleware uuid).toList =
      (m.bouncer.middlewareNamespace ++ "-").toList ++ uuid.toList := by
  have h : m.bouncerMiddleware uuid = m.bouncer.middlewareNamespace ++ "-" ++ uuid := rfl
  rw [h, String.toList_append]

theorem toList_appsecMiddleware (m : LabelMaker) (uuid : String) :
    (m.appsecMiddleware uuid).toList =
      (m.bouncer.appsecNamespace ++ "-").toList ++ uuid.toList := by
  have h : m.appsecMiddleware uuid = m.bouncer.appsecNamespace ++ "-" ++ uuid := rfl
  rw [h, String.toList_append]

theorem bouncerMiddleware_inj {u v : String} (h : m.bouncerMiddleware u = m.bouncerMiddleware v) :
    u = v := by
  have hchars := congrArg String.toList h
  rw [toList_bouncerMiddleware, toList_bouncerMiddleware] at hchars
  exact String.toList_inj.mp (List.append_cancel_left hchars)

theorem appsecMiddleware_inj {u v : String} (h : m.appsecMiddleware u = m.appsecMiddleware v) :
    u = v := by
  have hchars := congrArg String.toList h
  rw [toList_appsecMiddleware, toList_appsecMiddleware] at hchars
  exact String.toList_inj.mp (List.append_cancel_left hchars)

/-- A middleware is of one namespace only. -/
theorem bouncerMiddleware_ne (h : m.AreApart) (u v : String) :
    m.bouncerMiddleware u ≠ m.appsecMiddleware v := by
  intro heq
  have hchars := congrArg String.toList heq
  rw [toList_bouncerMiddleware, toList_appsecMiddleware] at hchars
  rcases List.prefix_or_prefix_of_prefix ⟨u.toList, hchars⟩ (List.prefix_append _ v.toList) with
    hprefix | hprefix
  · exact h.1 hprefix
  · exact h.2 hprefix

/-- Middlewares of one name are of the same application. -/
theorem uuid_eq_of_mem_parts (h : m.AreApart) {part other : String × List (String × String)}
    (hpart : part ∈ m.parts c) (hother : other ∈ m.parts d) (heq : part.1 = other.1) :
    c.uuid = d.uuid := by
  rcases part_eq_of_mem_parts hpart with rfl | rfl <;>
    rcases part_eq_of_mem_parts hother with rfl | rfl
  · exact bouncerMiddleware_inj heq
  · exact absurd heq (bouncerMiddleware_ne h c.uuid d.uuid)
  · exact absurd heq.symm (bouncerMiddleware_ne h d.uuid c.uuid)
  · exact appsecMiddleware_inj heq

theorem nodup_middlewares (h : m.AreApart) (c : LabelContext) : (m.labels c).middlewares.Nodup := by
  rw [middlewares_eq, parts]
  split
  · split
    · simpa using bouncerMiddleware_ne h c.uuid c.uuid
    · exact List.nodup_singleton _
  · exact List.nodup_nil

/-! ## Labels -/

/-- The labels are those of the middlewares' settings. -/
theorem mem_labels_iff_parts {key value : String} :
    (key, value) ∈ (m.labels c).labels ↔ ∃ middleware settings name,
      (middleware, settings) ∈ m.parts c ∧ (name, value) ∈ settings ∧
        key = keyOf middleware name := by
  rw [labels_eq, List.mem_flatMap]
  constructor
  · rintro ⟨⟨middleware, settings⟩, hpart, hmem⟩
    obtain ⟨⟨name, _⟩, hname, heq⟩ := List.mem_map.mp hmem
    obtain ⟨rfl, rfl⟩ := Prod.mk.inj heq
    exact ⟨middleware, settings, name, hpart, hname, rfl⟩
  · rintro ⟨middleware, settings, name, hpart, hname, rfl⟩
    exact ⟨(middleware, settings), hpart, List.mem_map_of_mem (f := fun entry : String × String =>
      (keyOf middleware entry.1, entry.2)) hname⟩

/-- **The labels of an application**: those of the bouncer's settings if its firewall is active,
and those of inspection if the gate is open too. -/
theorem mem_labels_iff {key value : String} :
    (key, value) ∈ (m.labels c).labels ↔ c.firewall.isActive = true ∧
      ((∃ name, (name, value) ∈ m.bouncerSettings c.firewall ∧
          key = keyOf (m.bouncerMiddleware c.uuid) name) ∨
        m.appsecGate c = true ∧ ∃ name, (name, value) ∈ m.appsecSettings c.firewall ∧
          key = keyOf (m.appsecMiddleware c.uuid) name) := by
  rw [mem_labels_iff_parts]
  constructor
  · rintro ⟨middleware, settings, name, hpart, hname, rfl⟩
    obtain ⟨hactive, hpart | ⟨hgate, hpart⟩⟩ := mem_parts_iff.mp hpart
    · obtain ⟨rfl, rfl⟩ := Prod.mk.inj hpart
      exact ⟨hactive, .inl ⟨name, hname, rfl⟩⟩
    · obtain ⟨rfl, rfl⟩ := Prod.mk.inj hpart
      exact ⟨hactive, .inr ⟨hgate, name, hname, rfl⟩⟩
  · rintro ⟨hactive, ⟨name, hname, rfl⟩ | ⟨hgate, name, hname, rfl⟩⟩
    · exact ⟨_, _, name, mem_parts_iff.mpr ⟨hactive, .inl rfl⟩, hname, rfl⟩
    · exact ⟨_, _, name, mem_parts_iff.mpr ⟨hactive, .inr ⟨hgate, rfl⟩⟩, hname, rfl⟩

theorem enabled_mem_labels (h : c.firewall.isActive = true) :
    (keyOf (m.bouncerMiddleware c.uuid) "enabled", "true") ∈ (m.labels c).labels :=
  mem_labels_iff.mpr ⟨h, .inl ⟨"enabled", List.mem_cons_self, rfl⟩⟩

theorem labels_eq_nil_iff : (m.labels c).labels = [] ↔ c.firewall.isActive = false := by
  constructor
  · intro hnone
    by_contra hactive
    rw [Bool.not_eq_false] at hactive
    have hmem := enabled_mem_labels (m := m) hactive
    rw [hnone] at hmem
    exact List.not_mem_nil hmem
  · intro hactive
    refine List.eq_nil_iff_forall_not_mem.mpr fun ⟨key, value⟩ hmem => ?_
    exact Bool.false_ne_true (hactive.symm.trans (mem_labels_iff.mp hmem).1)

theorem mem_keys_iff {key : String} :
    key ∈ (m.labels c).keys ↔ ∃ middleware settings name, (middleware, settings) ∈ m.parts c ∧
      name ∈ settings.map Prod.fst ∧ key = keyOf middleware name := by
  unfold LabelSet.keys
  rw [List.mem_map]
  constructor
  · rintro ⟨⟨_, value⟩, hmem, rfl⟩
    obtain ⟨middleware, settings, name, hpart, hname, hkey⟩ := mem_labels_iff_parts.mp hmem
    exact ⟨middleware, settings, name, hpart, List.mem_map_of_mem hname, hkey⟩
  · rintro ⟨middleware, settings, name, hpart, hname, rfl⟩
    obtain ⟨⟨_, value⟩, hmem, rfl⟩ := List.mem_map.mp hname
    exact ⟨_, mem_labels_iff_parts.mpr ⟨middleware, settings, _, hpart, hmem, rfl⟩, rfl⟩

/-- The keys of a middleware are its own. -/
theorem owns_iff_of_mem_parts {part : String × List (String × String)} (h : part ∈ m.parts c)
    {name middleware : String} (hname : name ∈ part.2.map Prod.fst) :
    Owns middleware (keyOf part.1 name) ↔ middleware = part.1 := by
  have hplain := ((areNamed_of_mem_parts h).plain name hname).1
  constructor
  · rintro ⟨setting, hsetting, heq⟩
    exact (LabelSet.keyOf_inj hplain hsetting heq).1.symm
  · rintro rfl
    exact ⟨name, hplain, rfl⟩

theorem nodup_keys (h : m.AreApart) (c : LabelContext) : (m.labels c).keys.Nodup := by
  have hkeys : (m.labels c).keys = (m.parts c).flatMap fun part =>
      (part.2.map Prod.fst).map (keyOf part.1) := by
    rw [LabelSet.keys, labels_eq, List.map_flatMap]
    refine List.flatMap_congr fun part _ => ?_
    rw [List.map_map, List.map_map]
    rfl
  have hmiddlewares := nodup_middlewares h c
  rw [middlewares_eq, List.Nodup, List.pairwise_map] at hmiddlewares
  rw [hkeys, List.nodup_flatMap]
  refine ⟨fun part hpart => ?_, hmiddlewares.imp_of_mem fun {a b} ha hb hne => ?_⟩
  · have hnamed := areNamed_of_mem_parts hpart
    refine hnamed.nodup.map_on fun s hs t ht heq => ?_
    exact (LabelSet.keyOf_inj (hnamed.plain s hs).1 (hnamed.plain t ht).1 heq).2
  · intro key hkeyA hkeyB
    obtain ⟨s, hs, rfl⟩ := List.mem_map.mp hkeyA
    obtain ⟨t, ht, heq⟩ := List.mem_map.mp hkeyB
    refine hne ((owns_iff_of_mem_parts hb ht).mp ?_)
    rw [heq]
    exact (owns_iff_of_mem_parts ha hs).mpr rfl

/-- The middlewares of a set are those that own its keys. -/
theorem mem_middlewares_iff {middleware : String} :
    middleware ∈ (m.labels c).middlewares ↔ ∃ key ∈ (m.labels c).keys, Owns middleware key := by
  rw [middlewares_eq, List.mem_map]
  constructor
  · rintro ⟨part, hpart, rfl⟩
    obtain ⟨⟨name, value⟩, settings, hsettings⟩ :=
      List.exists_cons_of_ne_nil (areNamed_of_mem_parts hpart).some
    have hname : name ∈ part.2.map Prod.fst := by
      rw [hsettings]
      exact List.mem_cons_self
    exact ⟨_, mem_keys_iff.mpr ⟨part.1, part.2, name, hpart, hname, rfl⟩,
      (owns_iff_of_mem_parts hpart hname).mpr rfl⟩
  · rintro ⟨key, hkey, howns⟩
    obtain ⟨other, settings, name, hpart, hname, rfl⟩ := mem_keys_iff.mp hkey
    exact ⟨_, hpart, ((owns_iff_of_mem_parts hpart hname).mp howns).symm⟩

/-- Different applications have no key in common. -/
theorem keys_disjoint (h : m.AreApart) (hne : c.uuid ≠ d.uuid) :
    List.Disjoint (m.labels c).keys (m.labels d).keys := by
  intro key hc hd
  obtain ⟨a, aSettings, s, ha, hs, rfl⟩ := mem_keys_iff.mp hc
  obtain ⟨b, bSettings, t, hb, ht, heq⟩ := mem_keys_iff.mp hd
  refine hne (uuid_eq_of_mem_parts h ha hb ?_)
  refine (owns_iff_of_mem_parts hb ht).mp ?_
  rw [← heq]
  exact (owns_iff_of_mem_parts ha hs).mpr rfl

/-! ## Lines -/

/-- The key of a part holds an equals sign only if the uuid does. -/
theorem sign_mem_keyOf_iff (hbouncer : '=' ∉ m.bouncer.middlewareNamespace.toList)
    (happsec : '=' ∉ m.bouncer.appsecNamespace.toList)
    {part : String × List (String × String)} (h : part ∈ m.parts c) {name : String}
    (hname : name ∈ part.2.map Prod.fst) :
    '=' ∈ (keyOf part.1 name).toList ↔ '=' ∈ c.uuid.toList := by
  have hplain := ((areNamed_of_mem_parts h).plain name hname).2
  have hmiddleware : '=' ∈ part.1.toList ↔ '=' ∈ c.uuid.toList := by
    have hhyphen : "-".toList = ['-'] := rfl
    rcases part_eq_of_mem_parts h with rfl | rfl
    · simp [toList_bouncerMiddleware, hhyphen, hbouncer]
    · simp [toList_appsecMiddleware, hhyphen, happsec]
  have hstart : '=' ∉ "traefik.http.middlewares.".toList := by decide
  have hmiddle : '=' ∉ ".plugin.bouncer".toList := by decide
  rw [LabelSet.toList_keyOf, ← hmiddleware]
  simp only [List.mem_append, List.mem_cons, hstart, hmiddle, hplain, false_or, or_false]
  exact or_iff_left (by decide)

/-- **The lines of an application can be cut** into keys and values unless its uuid holds an equals
sign. -/
theorem cut_lines_iff (hbouncer : '=' ∉ m.bouncer.middlewareNamespace.toList)
    (happsec : '=' ∉ m.bouncer.appsecNamespace.toList) :
    ((m.labels c).lines.map fun line => Text.cut? ['='] line.toList) =
        ((m.labels c).labels.map fun (key, value) => some (key.toList, value.toList)) ↔
      (c.firewall.isActive = true → '=' ∉ c.uuid.toList) := by
  have hkeys : ∀ key value, (key, value) ∈ (m.labels c).labels →
      ('=' ∈ key.toList ↔ '=' ∈ c.uuid.toList) := by
    intro key value hmem
    obtain ⟨middleware, settings, name, hpart, hname, rfl⟩ := mem_labels_iff_parts.mp hmem
    exact sign_mem_keyOf_iff hbouncer happsec hpart (List.mem_map_of_mem hname)
  rw [LabelSet.lines, List.map_map, List.map_inj_left]
  constructor
  · intro h hactive
    have hmem := enabled_mem_labels (m := m) hactive
    have hnot := (LabelSet.cut_line_iff _ _).mp (h _ hmem)
    exact fun hsign => hnot ((hkeys _ _ hmem).mpr hsign)
  · rintro h ⟨key, value⟩ hmem
    refine (LabelSet.cut_line_iff key value).mpr fun hsign => ?_
    exact h (mem_labels_iff.mp hmem).1 ((hkeys key value hmem).mp hsign)

/-! ## All or nothing -/

/-- **Labels are all or nothing for every namespace, and never collide**, where neither namespace
begins the other. There are none unless the firewall is active; then there are those of all settings
of the bouncer and, if the gate is open, of all settings of inspection, and no others. All keys of a
set are different, what is found under a key is what the set has of it, and the middlewares of the
set are those that own its keys. Applications of different uuids have no key in common. Where no
namespace holds an equals sign, a line is cut at its first one into key and value, unless the uuid
holds one. -/
theorem labels_all_or_nothing (h : m.AreApart) (c : LabelContext) :
    ((m.labels c).labels = [] ↔ c.firewall.isActive = false) ∧
    (∀ key value, (key, value) ∈ (m.labels c).labels ↔ c.firewall.isActive = true ∧
      ((∃ name, (name, value) ∈ m.bouncerSettings c.firewall ∧
          key = keyOf (m.bouncerMiddleware c.uuid) name) ∨
        m.appsecGate c = true ∧ ∃ name, (name, value) ∈ m.appsecSettings c.firewall ∧
          key = keyOf (m.appsecMiddleware c.uuid) name)) ∧
    (m.labels c).keys.Nodup ∧
    (∀ key value, (m.labels c).get? key = some value ↔ (key, value) ∈ (m.labels c).labels) ∧
    (m.labels c).middlewares.Nodup ∧
    (∀ middleware, middleware ∈ (m.labels c).middlewares ↔
      ∃ key ∈ (m.labels c).keys, Owns middleware key) ∧
    (∀ d : LabelContext, c.uuid ≠ d.uuid →
      List.Disjoint (m.labels c).keys (m.labels d).keys) ∧
    ('=' ∉ m.bouncer.middlewareNamespace.toList → '=' ∉ m.bouncer.appsecNamespace.toList →
      (((m.labels c).lines.map fun line => Text.cut? ['='] line.toList) =
          ((m.labels c).labels.map fun (key, value) => some (key.toList, value.toList)) ↔
        (c.firewall.isActive = true → '=' ∉ c.uuid.toList))) := by
  exact ⟨labels_eq_nil_iff, fun _ _ => mem_labels_iff, nodup_keys h c,
    fun _ _ => LabelSet.get?_eq_some_iff (nodup_keys h c), nodup_middlewares h c,
    fun _ => mem_middlewares_iff, fun _ => keys_disjoint h, cut_lines_iff⟩

namespace Demo

/-- An active firewall with a credential that holds equals signs, of an application of some uuid. -/
def context (uuid : String) : LabelContext where
  uuid := uuid
  firewall := { id := 1, enabled := true, apiKey := "k==", appsecEnabled := true }
  appsecAvailable := true
  hasPathOnlyRule := true

/-- Namespaces that begin alike. -/
def maker : LabelMaker where
  bouncer := { middlewareNamespace := "guard", appsecNamespace := "guard.plugin.bouncer" }

end Demo

/-- Uuids with full stops that look like parts of keys. -/
theorem labels_all_or_nothing_alike :
    Demo.maker.AreApart ∧
    (Demo.maker.labels (Demo.context "a.plugin.bouncer")).labels ≠ [] ∧
    (Demo.maker.labels (Demo.context "a.plugin.bouncer")).keys.Nodup ∧
    (Demo.maker.labels (Demo.context "a.plugin.bouncer")).get?
      "traefik.http.middlewares.guard-a.plugin.bouncer.plugin.bouncer.crowdseclapikey" =
        some "k==" ∧
    List.Disjoint (Demo.maker.labels (Demo.context "a.plugin.bouncer")).keys
      (Demo.maker.labels (Demo.context "a")).keys ∧
    ((Demo.maker.labels (Demo.context "a.plugin.bouncer")).lines.map
        fun line => Text.cut? ['='] line.toList) =
      ((Demo.maker.labels (Demo.context "a.plugin.bouncer")).labels.map
        fun (key, value) => some (key.toList, value.toList)) := by
  have hapart : Demo.maker.AreApart := by decide
  obtain ⟨hnone, hall, hkeys, hget, _, _, hdisjoint, hcut⟩ :=
    labels_all_or_nothing hapart (Demo.context "a.plugin.bouncer")
  refine ⟨hapart, hnone.not.mpr (by decide), hkeys, (hget _ _).mpr ((hall _ _).mpr ?_),
    hdisjoint (Demo.context "a") (by decide), (hcut (by decide) (by decide)).mpr fun _ => by decide⟩
  exact ⟨by decide, .inl ⟨"crowdseclapikey", by decide, rfl⟩⟩

/-- **A line cannot be cut at its first equals sign** where the uuid holds one. -/
theorem cut_ne_of_sign_in_uuid :
    AreApart {} ∧ '=' ∉ ({} : LabelMaker).bouncer.middlewareNamespace.toList ∧
    '=' ∉ ({} : LabelMaker).bouncer.appsecNamespace.toList ∧
    ¬((labels {} (Demo.context "a=b")).lines.map fun line => Text.cut? ['='] line.toList) =
      ((labels {} (Demo.context "a=b")).labels.map
        fun (key, value) => some (key.toList, value.toList)) := by
  decide

end LabelMaker

end Rampart
