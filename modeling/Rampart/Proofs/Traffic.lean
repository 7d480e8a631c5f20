import Rampart.Proofs.Json.Decode
import Rampart.Traffic.Wire

/-!
# Totals of traffic counts

What the counts of an application and their sum are after any number of requests, and when the sum
that is written is the number of the requests.

* `toNat_saturatingAdd`: a sum that stops is the true sum or the largest number.
* `Traffic.total`: the true sum of the counts. `Traffic.IsMade`: the counts that can be there to
  begin with, which are those with a sum of 64 bits (`isMade_iff`).
* `Traffic.after`: counts after more requests. Each count stops at the largest number on its own
  (`toNat_counted_after`), so that their true sum may grow past it.
* **`adds_up_iff_fits`**: the sum that is written is the true one exactly as long as all requests
  fit in 64 bits or have one outcome, and only then are the counts read back.
-/

namespace Rampart

theorem toNat_saturatingAdd (a b : UInt64) :
    (saturatingAdd a b).toNat = min (a.toNat + b.toNat) (2 ^ 64 - 1) := by
  have hsize : UInt64.size = 2 ^ 64 := rfl
  unfold saturatingAdd
  split
  case isTrue hfits =>
    rw [UInt64.toNat_add, Nat.mod_eq_of_lt (by omega)]
    omega
  case isFalse hfull =>
    rw [UInt64.toNat_ofNat_of_lt' (by omega)]
    omega

namespace Traffic

variable {t : Traffic} {outcomes : List Outcome}

/-- How many requests had an outcome. -/
def counted (t : Traffic) : Outcome → UInt64
  | .allowed => t.allowed
  | .denied => t.denied
  | .challenged => t.challenged

/-- How many requests there were, in all. -/
def total (t : Traffic) : Nat :=
  t.allowed.toNat + t.denied.toNat + t.challenged.toNat

theorem toNat_all (t : Traffic) : t.all.toNat = min t.total (2 ^ 64 - 1) := by
  rw [all, toNat_saturatingAdd, toNat_saturatingAdd, total]
  omega

theorem all_eq_total_iff : t.total = t.all.toNat ↔ t.total < 2 ^ 64 := by
  rw [toNat_all]
  omega

/-! ## What is accepted -/

theorem ofCounts_eq_ok_iff {allowed denied challenged : UInt64} :
    ofCounts allowed denied challenged = .ok t ↔
      t = ⟨allowed, denied, challenged⟩ ∧ t.total < 2 ^ 64 := by
  unfold ofCounts
  split
  case isTrue hfits =>
    constructor
    · rintro ⟨⟩
      exact ⟨rfl, hfits⟩
    · rintro ⟨rfl, -⟩
      rfl
  case isFalse hfull =>
    constructor
    · rintro ⟨⟩
    · rintro ⟨rfl, hfits⟩
      exact absurd hfits hfull

/-- Counts with the sum that is written of them are taken exactly if nothing was lost in it. -/
theorem ofReport_all (t : Traffic) :
    ofReport t.allowed t.denied t.challenged t.all =
      if t.total < 2 ^ 64 then .ok t else .error .overflow := by
  by_cases hfits : t.total < 2 ^ 64
  · have hcounts : ofCounts t.allowed t.denied t.challenged = .ok t :=
      ofCounts_eq_ok_iff.mpr ⟨rfl, hfits⟩
    rw [if_pos hfits, ofReport, hcounts]
    exact if_pos rfl
  · have hcounts : ofCounts t.allowed t.denied t.challenged = .error .overflow := if_neg hfits
    rw [if_neg hfits, ofReport, hcounts]
    rfl

theorem total_lt_of_ofReport {allowed denied challenged all : UInt64}
    (h : ofReport allowed denied challenged all = .ok t) : t.total < 2 ^ 64 := by
  obtain ⟨u, hcounts, hsum⟩ := Except.bind_eq_ok_iff.mp h
  split at hsum
  · cases hsum
    exact (ofCounts_eq_ok_iff.mp hcounts).2
  · cases hsum

theorem reportFields_encode (t : Traffic) :
    reportFields.decode (encode t) =
      .ok (ofReport t.allowed t.denied t.challenged t.all) := by
  have hread : ∀ m : Json.Members,
      m.find "allowed" = some (encode t.allowed) → m.find "denied" = some (encode t.denied) →
      m.find "challenged" = some (encode t.challenged) →
      m.find "all_traffic" = some (encode t.all) →
      reportFields.read m = .ok (ofReport t.allowed t.denied t.challenged t.all) := by
    intro m hallowed hdenied hchallenged hall
    simp only [reportFields, Functor.map, Seq.seq, Json.Fields.required, hallowed, hdenied,
      hchallenged, hall, Json.word_encode]
    rfl
  let members := [Json.member "allowed" t.allowed, Json.member "denied" t.denied,
    Json.member "challenged" t.challenged, Json.member "all_traffic" t.all]
  have hcut : Json.haveCutShort members = false := rfl
  have hrepeats : Json.Fields.repeats reportFields.names members = false := rfl
  show reportFields.decode (.obj members) = _
  simp only [Json.Fields.decode, hcut, hrepeats]
  rw [hread _ rfl rfl rfl rfl]
  rfl

/-- What is written of counts is read back exactly if nothing was lost in their sum. -/
theorem decode_encode (t : Traffic) :
    decode (encode t) = if t.total < 2 ^ 64 then .ok t else .error .mismatched := by
  have hread := (reportFields_encode t).trans (congrArg Except.ok (ofReport_all t))
  unfold decode
  rw [hread]
  by_cases hfits : t.total < 2 ^ 64
  · rw [if_pos hfits, if_pos hfits]
    rfl
  · rw [if_neg hfits, if_neg hfits]
    rfl

theorem exists_ofReport_of_decode {j : Json} (h : decode j = .ok t) :
    ∃ allowed denied challenged all, ofReport allowed denied challenged all = .ok t := by
  obtain ⟨result, hfields, hresult⟩ := Except.bind_eq_ok_iff.mp h
  obtain ⟨m, hread⟩ := Json.Fields.exists_read_of_decode hfields
  obtain ⟨f, all, hf, -, rfl⟩ := Json.both_eq_ok_iff.mp hread
  obtain ⟨g, challenged, hg, -, rfl⟩ := Json.both_eq_ok_iff.mp hf
  obtain ⟨k, denied, hk, -, rfl⟩ := Json.both_eq_ok_iff.mp hg
  obtain ⟨allowed, rfl⟩ : ∃ allowed, ofReport allowed = k := by
    replace hk : (Json.Fields.read (.required "allowed" Json.word) m).map ofReport = .ok k := hk
    cases hallowed : Json.Fields.read (.required "allowed" Json.word) m with
    | error fault =>
      rw [hallowed] at hk
      cases hk
    | ok allowed =>
      rw [hallowed] at hk
      exact ⟨allowed, Except.ok.inj hk⟩
  refine ⟨allowed, denied, challenged, all, ?_⟩
  split at hresult
  · next hreport =>
    cases hresult
    exact hreport
  · cases hresult

/-- Counts that can be there to begin with: made of numbers, or read. -/
inductive IsMade (t : Traffic) : Prop
  | counts {allowed denied challenged : UInt64} (h : ofCounts allowed denied challenged = .ok t)
  | read {j : Json} (h : decode j = .ok t)

theorem isMade_iff : t.IsMade ↔ t.total < 2 ^ 64 := by
  constructor
  · rintro (h | h)
    · exact (ofCounts_eq_ok_iff.mp h).2
    · obtain ⟨_, _, _, _, hreport⟩ := exists_ofReport_of_decode h
      exact total_lt_of_ofReport hreport
  · exact fun hfits => .counts (ofCounts_eq_ok_iff.mpr ⟨rfl, hfits⟩)

/-! ## More requests -/

/-- Counts after more requests. -/
def after (t : Traffic) (outcomes : List Outcome) : Traffic :=
  outcomes.foldl record t

/-- One request more is one more of its outcome, unless that count is full. -/
theorem toNat_counted_record (t : Traffic) (outcome o : Outcome) :
    ((t.record outcome).counted o).toNat =
      min ((t.counted o).toNat + if outcome = o then 1 else 0) (2 ^ 64 - 1) := by
  have hlt : (t.counted o).toNat < 2 ^ 64 := (t.counted o).toNat_lt
  by_cases ho : outcome = o
  · subst ho
    rw [if_pos rfl]
    cases outcome <;> exact toNat_saturatingAdd _ 1
  · have hsame : (t.record outcome).counted o = t.counted o := by
      cases outcome <;> cases o <;> first | rfl | exact absurd rfl ho
    rw [hsame, if_neg ho]
    omega

/-- The requests that had an outcome, those counted before and those that come. -/
def seen (t : Traffic) (outcomes : List Outcome) (o : Outcome) : Nat :=
  (t.counted o).toNat + outcomes.count o

/-- After any requests, a count has all of its outcome, or it is full. -/
theorem toNat_counted_after (t : Traffic) (outcomes : List Outcome) (o : Outcome) :
    ((t.after outcomes).counted o).toNat = min (t.seen outcomes o) (2 ^ 64 - 1) := by
  induction outcomes generalizing t with
  | nil =>
    have hlt : (t.counted o).toNat < 2 ^ 64 := (t.counted o).toNat_lt
    rw [seen, List.count_nil, after, List.foldl_nil]
    omega
  | cons outcome outcomes ih =>
    have hstep := ih (t.record outcome)
    rw [seen, toNat_counted_record] at hstep
    rw [seen, List.count_cons, after, List.foldl_cons, ← after, hstep]
    simp only [beq_iff_eq]
    omega

theorem total_eq_counted (t : Traffic) :
    t.total = (t.counted .allowed).toNat + (t.counted .denied).toNat +
      (t.counted .challenged).toNat :=
  rfl

/-- Every request has one of the outcomes. -/
theorem total_add_length_eq (t : Traffic) (outcomes : List Outcome) :
    t.total + outcomes.length =
      t.seen outcomes .allowed + t.seen outcomes .denied + t.seen outcomes .challenged := by
  induction outcomes with
  | nil => rfl
  | cons outcome outcomes ih =>
    simp only [seen, List.length_cons, List.count_cons] at ih ⊢
    cases outcome <;> simp <;> omega

/-- All requests have one outcome, those counted before and those that come. -/
def IsUniform (t : Traffic) (outcomes : List Outcome) : Prop :=
  ∃ outcome, ∀ o, o ≠ outcome → t.counted o = 0 ∧ o ∉ outcomes

theorem isUniform_iff :
    t.IsUniform outcomes ↔
      t.seen outcomes .denied = 0 ∧ t.seen outcomes .challenged = 0 ∨
        t.seen outcomes .allowed = 0 ∧ t.seen outcomes .challenged = 0 ∨
          t.seen outcomes .allowed = 0 ∧ t.seen outcomes .denied = 0 := by
  have hnone : ∀ o, t.counted o = 0 ∧ o ∉ outcomes ↔ t.seen outcomes o = 0 := fun o => by
    rw [seen, Nat.add_eq_zero_iff, List.count_eq_zero, ← UInt64.toNat_inj, UInt64.toNat_zero]
  simp only [IsUniform, hnone]
  constructor
  · rintro ⟨outcome, hone⟩
    cases outcome with
    | allowed => exact .inl ⟨hone .denied nofun, hone .challenged nofun⟩
    | denied => exact .inr (.inl ⟨hone .allowed nofun, hone .challenged nofun⟩)
    | challenged => exact .inr (.inr ⟨hone .allowed nofun, hone .denied nofun⟩)
  · rintro (⟨hdenied, hchallenged⟩ | ⟨hallowed, hchallenged⟩ | ⟨hallowed, hdenied⟩)
    · exact ⟨.allowed, fun
        | .allowed, hne => absurd rfl hne
        | .denied, _ => hdenied
        | .challenged, _ => hchallenged⟩
    · exact ⟨.denied, fun
        | .allowed, _ => hallowed
        | .denied, hne => absurd rfl hne
        | .challenged, _ => hchallenged⟩
    · exact ⟨.challenged, fun
        | .allowed, _ => hallowed
        | .denied, _ => hdenied
        | .challenged, hne => absurd rfl hne⟩

/-- The true sum stays within 64 bits exactly if there are few enough requests, or a single count
has them all and stops. -/
theorem total_after_lt_iff :
    (t.after outcomes).total < 2 ^ 64 ↔
      t.total + outcomes.length < 2 ^ 64 ∨ t.IsUniform outcomes := by
  rw [isUniform_iff, total_add_length_eq, total_eq_counted]
  simp only [toNat_counted_after]
  omega

theorem total_after_eq (hfew : t.total + outcomes.length < 2 ^ 64) :
    (t.after outcomes).total = t.total + outcomes.length := by
  rw [total_add_length_eq] at hfew ⊢
  rw [total_eq_counted]
  simp only [toNat_counted_after]
  omega

/-- **Counts add up, and are read back from what is written of them, exactly as long as they fit.**
They do when they are made or read. After more requests they still do if all requests together are
a number of 64 bits, or have one outcome, whose count stops. In any other case the sum that is
written is too small, and reading it is refused. -/
theorem adds_up_iff_fits (hmade : t.IsMade) (outcomes : List Outcome) :
    let u := t.after outcomes
    let fits := t.total + outcomes.length < 2 ^ 64 ∨ t.IsUniform outcomes
    (t.total = t.all.toNat ∧ decode (encode t) = .ok t) ∧
      (∀ o, (u.counted o).toNat = min (t.seen outcomes o) (2 ^ 64 - 1)) ∧
      (t.total + outcomes.length < 2 ^ 64 → u.total = t.total + outcomes.length) ∧
      (fits → u.total = u.all.toNat ∧
        ofReport u.allowed u.denied u.challenged u.all = .ok u ∧ decode (encode u) = .ok u) ∧
      (¬ fits → u.all.toNat < u.total ∧
        ofReport u.allowed u.denied u.challenged u.all = .error .overflow ∧
        decode (encode u) = .error .mismatched) := by
  intro u fits
  have hstart : t.total < 2 ^ 64 := isMade_iff.mp hmade
  have hfits : u.total < 2 ^ 64 ↔ fits := total_after_lt_iff
  refine ⟨⟨all_eq_total_iff.mpr hstart, ?_⟩, toNat_counted_after t outcomes, total_after_eq,
    fun h => ?_, fun h => ?_⟩
  · rw [decode_encode, if_pos hstart]
  · have hlt : u.total < 2 ^ 64 := hfits.mpr h
    rw [ofReport_all, decode_encode, if_pos hlt, if_pos hlt]
    exact ⟨all_eq_total_iff.mpr hlt, rfl, rfl⟩
  · have hge : ¬ u.total < 2 ^ 64 := fun hlt => h (hfits.mp hlt)
    rw [ofReport_all, decode_encode, if_neg hge, if_neg hge, toNat_all]
    exact ⟨by omega, rfl, rfl⟩

namespace Demo

/-- As many allowed requests as can be counted. -/
def full : Traffic :=
  ⟨UInt64.ofNat (2 ^ 64 - 1), 0, 0⟩

theorem full_isMade : full.IsMade := by
  have hcounts : ofCounts (UInt64.ofNat (2 ^ 64 - 1)) 0 0 = .ok full := by decide +kernel
  exact .counts hcounts

end Demo

/-- A full count that gets one more of its own outcome stays as it is; one of another outcome is
counted, and then the sum is one too small. -/
theorem adds_up_iff_fits_full :
    Demo.full.IsMade ∧
      decode (encode (Demo.full.after [.allowed])) = .ok (Demo.full.after [.allowed]) ∧
      decode (encode (Demo.full.after [.denied])) = .error .mismatched := by
  have hmade := Demo.full_isMade
  obtain ⟨-, -, -, hfits, -⟩ := adds_up_iff_fits hmade [.allowed]
  obtain ⟨-, -, -, -, hfull⟩ := adds_up_iff_fits hmade [.denied]
  refine ⟨hmade, (hfits (.inr ?_)).2.2, (hfull ?_).2.2⟩
  · exact isUniform_iff.mpr (.inl (by decide +kernel))
  · rw [isUniform_iff]
    decide +kernel

/-- **Counts that were made do not add up after one more request.** -/
theorem all_ne_total_after_denied :
    ¬ ∀ (t : Traffic) (outcomes : List Outcome), t.IsMade →
      (t.after outcomes).total = (t.after outcomes).all.toNat ∧
        decode (encode (t.after outcomes)) = .ok (t.after outcomes) := by
  intro h
  have htotal := (h Demo.full [.denied] Demo.full_isMade).1
  exact absurd htotal (by decide +kernel)

end Traffic

end Rampart
