import Rampart.Proofs.Store.Registration

/-!
# Looking applications up

An application that has been registered stays in the store, under the number and the uuid that it
was registered with. Registering another one under either takes its place.

* `ToldApart`: registrations of one number are of one uuid, and the other way round.
* `StaysListed`: every registered number and uuid is found again.
* **`Store.application_after_iff`**: then an application is found for its own uuid, and for no other.
-/

namespace Rampart

variable {settings : Settings.Scenarios} {s : Store} {ledger : Ledger}
  {registrations : List (Application × Firewall)}

/-- Registrations of one number are of one uuid, and the other way round. -/
def ToldApart (registrations : List (Application × Firewall)) : Prop :=
  ∀ r ∈ registrations, ∀ r' ∈ registrations, r.1.id = r'.1.id ↔ r.1.uuid = r'.1.uuid

instance (registrations : List (Application × Firewall)) : Decidable (ToldApart registrations) :=
  inferInstanceAs (Decidable (∀ r ∈ registrations, ∀ r' ∈ registrations,
    r.1.id = r'.1.id ↔ r.1.uuid = r'.1.uuid))

theorem Store.application_eq_ok_iff {uuid : String} {application : Application} :
    s.application uuid = .ok application ↔
      ∃ id, s.byUuid.get? uuid = some id ∧ s.applications.get? id = some application := by
  rw [← Option.bind_eq_some_iff, Store.application]
  cases (s.byUuid.get? uuid).bind s.applications.get? with
  | none => simp only [reduceCtorEq]
  | some found => rw [Except.ok.injEq, Option.some.injEq]

/-- Only registering changes which applications there are. -/
theorem Store.Outcome.applications_eq {operation : Operation} {t : Store}
    (h : s.Outcome settings operation t)
    (hother : ∀ application firewall, operation ≠ .register application firewall) :
    t.byUuid = s.byUuid ∧ t.applications = s.applications := by
  cases h with
  | refused | numbered | deleted | changed => exact ⟨rfl, rfl⟩
  | registered => exact absurd rfl (hother _ _)
  | saved _ _ ht =>
    rw [ht]
    exact ⟨rfl, rfl⟩

theorem Ledger.registrations_note {operation : Operation}
    (hother : ∀ application firewall, operation ≠ .register application firewall) :
    (ledger.note settings s operation).registrations = ledger.registrations := by
  cases operation with
  | register application firewall => exact absurd rfl (hother _ _)
  | save => rfl
  | delete | update | recordBouncer =>
    simp only [note]
    split <;> rfl

/-- **Every registered number and uuid is found again.** -/
structure StaysListed (registrations : List (Application × Firewall)) (s : Store) : Prop where
  byUuid : ∀ r ∈ registrations, ∃ id, s.byUuid.get? r.1.uuid = some id
  applications : ∀ r ∈ registrations, ∃ application,
    s.applications.get? r.1.id = some application

namespace StaysListed

theorem register (h : StaysListed registrations s) {store : Store} {application : Application}
    {firewall : Firewall} (hregister : s.register application firewall = .ok store) :
    StaysListed ((application, firewall) :: registrations) store := by
  obtain ⟨_, _, hregister⟩ := Except.bind_eq_ok_iff.mp hregister
  obtain rfl := Except.ok.inj hregister
  refine ⟨fun r hr => ?_, fun r hr => ?_⟩
  · show ∃ id, (s.byUuid.insert application.uuid application.id).get? r.1.uuid = some id
    rw [Table.get?_insert]
    split
    · exact ⟨_, rfl⟩
    · next hne =>
      rcases List.mem_cons.mp hr with rfl | hr
      · exact absurd rfl hne
      · exact h.byUuid r hr
  · show ∃ found, (s.applications.insert application.id application).get? r.1.id = some found
    rw [Table.get?_insert]
    split
    · exact ⟨_, rfl⟩
    · next hne =>
      rcases List.mem_cons.mp hr with rfl | hr
      · exact absurd rfl hne
      · exact h.applications r hr

/-- **An operation.** -/
theorem perform (h : StaysListed ledger.registrations s) (operation : Operation) :
    StaysListed (ledger.note settings s operation).registrations
      (s.perform settings operation) := by
  by_cases hother : ∀ application firewall, operation ≠ .register application firewall
  · obtain ⟨hbyUuid, happlications⟩ :=
      (Store.perform_outcome settings s operation).applications_eq hother
    rw [Ledger.registrations_note hother]
    exact ⟨hbyUuid ▸ h.byUuid, happlications ▸ h.applications⟩
  · simp only [not_forall, not_not] at hother
    obtain ⟨application, firewall, rfl⟩ := hother
    cases hregister : s.register application firewall with
    | error failure => simpa only [Ledger.note, Store.perform, hregister] using h
    | ok store =>
      simp only [Ledger.note, Store.perform, hregister]
      exact h.register hregister

end StaysListed

/-- **From the beginning on.** -/
theorem staysListed_after (settings : Settings.Scenarios) (operations : List Operation) :
    StaysListed (Ledger.of settings operations).registrations (.after settings operations) := by
  induction operations using List.reverseRecOn with
  | nil => exact ⟨nofun, nofun⟩
  | append_singleton operations operation ih =>
    rw [Store.after_concat, Ledger.of_concat]
    exact ih.perform operation

/-- **An application is found for its own uuid**, and for no other. -/
theorem Store.application_after_iff {operations : List Operation}
    (hapart : ToldApart (Ledger.of settings operations).registrations) {uuid : String}
    {application : Application} :
    (Store.after settings operations).application uuid = .ok application ↔
      (Store.after settings operations).applications.get? application.id = some application ∧
        application.uuid = uuid := by
  have hregistered := isRegistered_after settings operations
  have hlisted := staysListed_after settings operations
  rw [Store.application_eq_ok_iff]
  constructor
  · rintro ⟨id, huuid, hget⟩
    obtain ⟨r, hr, rfl, hid⟩ := hregistered.byUuid uuid id huuid
    obtain ⟨hself, r', hr', rfl⟩ := hregistered.applications id application hget
    exact ⟨hself.symm ▸ hget, ((hapart r' hr' r hr).mp (hself.trans hid.symm))⟩
  · rintro ⟨hget, rfl⟩
    obtain ⟨-, r, hr, rfl⟩ := hregistered.applications _ _ hget
    obtain ⟨id, huuid⟩ := hlisted.byUuid r hr
    obtain ⟨r', hr', hsame, rfl⟩ := hregistered.byUuid _ _ huuid
    exact ⟨_, huuid, (hapart r' hr' r hr).mpr hsame ▸ hget⟩

end Rampart
