import Rampart.Proofs.Deployment.Planning

/-!
# An application to run

A state in which nothing has happened yet, with one application whose firewall is active.

* `Shop.site`, `Shop.firewall`, `Shop.state`: the application, its firewall and the state.
* `Shop.knows`: the state knows the application.
-/

namespace Rampart.Shop

/-- An application of the name of a shop. -/
def site : Site where
  firewall := 1
  application := { id := 1, uuid := "abc", name := "shop", serverId := 1 }
  server := { id := 1, name := "one", host := "one.test" }
  settings := {}

/-- Its firewall, with a bouncer that the engine knows. -/
def firewall : Firewall where
  id := 1
  applicationId := 1
  enabled := true
  apiKey := "k"
  bouncerName := some "b"

/-- The application is known and nothing has happened. -/
def state : Orchestrator where
  registry := ⟨[site.server]⟩
  store := {
    applications := ⟨[(1, site.application)]⟩
    byUuid := ⟨[("abc", 1)]⟩
    firewalls := ⟨[(1, firewall)]⟩
    byApplication := ⟨[(1, 1)]⟩ }
  ruleBus := (Bus.ofCapacity 4).subscribe Simulation.deployer

theorem knows : state.KnowsSite site where
  settings := rfl
  server := rfl
  store := {
    byUuid := rfl
    application := rfl
    byApplication := rfl
    firewall := ⟨_, rfl⟩
    numbered := fun id firewall h => by
      have hmem := (Table.get?_eq_some_iff (by decide)).mp h
      cases List.mem_singleton.mp hmem
      rfl
    distinct := by decide
    own := fun id firewall h => by
      have hmem := (Table.get?_eq_some_iff (by decide)).mp h
      cases List.mem_singleton.mp hmem
      exact ⟨fun _ => rfl, fun _ => rfl⟩
    valid := fun id application h => by
      have hmem := (Table.get?_eq_some_iff (by decide)).mp h
      cases List.mem_singleton.mp hmem
      exact ⟨by decide, fun _ => rfl⟩
    rules := List.nodup_nil
    compiled := nofun }

end Rampart.Shop
