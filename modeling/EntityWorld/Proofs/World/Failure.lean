import EntityWorld.Proofs.World.Reached

namespace EntityWorld

variable {S : Schema} {σ : Type}

namespace Builder

/-- Creating an entity in a builder fails where its store does, which changes nothing. -/
theorem create_error {builder after : Builder S σ} {components : List (Component S)} {error : Error}
    (hcreate : builder.create components = .error error after) : after = builder := by
  unfold create at hcreate
  split at hcreate
  case h_1 cause store hstore =>
    cases hcreate
    rw [Store.create_error hstore]
  case h_2 => cases hcreate

theorem addSystem_error {builder after : Builder S σ} {system : System S σ} {error : Error}
    (hadd : builder.addSystem system = .error error after) : after = builder := by
  unfold addSystem at hadd
  split at hadd
  · cases hadd
    rfl
  · split at hadd <;> cases hadd
    rfl

theorem eq_of_error {builder after : Builder S σ} (call : Call S σ) {error : Error}
    (hresult : call.result builder = .error error after) : after = builder := by
  cases call with
  | create components => exact create_error hresult
  | createInitial types => exact create_error hresult
  | addSystem system => exact addSystem_error hresult
  | seed value => cases hresult
  | configure config => cases hresult
  | register type => cases hresult

end Builder

namespace World

/-- An operation on the store that leaves it as it was leaves the world as it was, since the world
has nothing else to do with it. -/
theorem withStore_error {α : Type} {world after : World S σ} {result : Store.Result S α}
    (hkept : ∀ {error : Error} {store : Store S}, result = .error error store →
      store = world.store)
    {error : Error} (hresult : world.withStore result = .error error after) : after = world := by
  cases result with
  | error cause store =>
    cases hresult
    rw [hkept rfl]
  | ok answer store => cases hresult

theorem remove_error {world after : World S σ} {entity : EntityId} {error : Error}
    (hremove : world.remove entity = .error error after) : after = world := by
  unfold remove at hremove
  split at hremove
  case h_1 cause store hstore =>
    cases hremove
    rw [Store.remove_error hstore]
  case h_2 => cases hremove

/-- Setting a component that the entity does not have changes nothing in a world either. -/
theorem set_false {world after : World S σ} {entity : EntityId} {component : Component S}
    (hset : world.set entity component = .ok false after) : after = world := by
  unfold set at hset
  cases hstore : world.store.set entity component with
  | error cause store =>
    rw [hstore] at hset
    cases hset
  | ok answer store =>
    rw [hstore] at hset
    cases hset
    rw [Store.set_false hstore]

/-- No call on a world changes it when it fails. Restoring is the one for which this takes more than
the call itself: the store has to be sound. -/
theorem Consistent.eq_of_error {world after : World S σ} {order : List EntityId}
    (hworld : world.Consistent order) (call : Call S) {error : Error}
    (hresult : call.result world = .error error after) : after = world := by
  cases call with
  | create components => exact withStore_error Store.create_error hresult
  | createInitial types => exact withStore_error Store.create_error hresult
  | remove entity => exact remove_error hresult
  | set entity component => exact withStore_error Store.set_error hresult
  | modify entity type change => exact withStore_error Store.modify_error hresult
  | setField entity type field value => exact withStore_error Store.setField_error hresult
  | register type => cases hresult
  | restore snapshot => exact withStore_error hworld.sound.restore_error hresult

end World

/-- Whatever call fails on whatever store, builder or world that calls lead to, everything is as it
was before, and so it is when setting a component that is not there answers `false`. Once all rows
of a snapshot could be built, setting a store back to it cannot fail any more. -/
theorem unchanged_of_error :
    (∀ store : Store S, store.Reachable →
      (∀ (call : Store.Call S) (error : Error) (after : Store S),
        call.result store = .error error after → after = store) ∧
      (∀ (entity : EntityId) (component : Component S) (after : Store S),
        store.set entity component = .ok false after → after = store) ∧
      ∀ (snapshot : Snapshot) (rows : List (EntityId × List (Component S))),
        store.buildRows snapshot = .ok rows → ∃ after, store.placeAll rows = .ok () after) ∧
    (∀ (builder : Builder S σ) (order : List EntityId), builder.Reached order →
      ∀ (call : Builder.Call S σ) (error : Error) (after : Builder S σ),
        call.result builder = .error error after → after = builder) ∧
    ∀ (world : World S σ) (order : List EntityId), world.Reached order →
      (∀ (call : World.Call S) (error : Error) (after : World S σ),
        call.result world = .error error after → after = world) ∧
      (∀ (entity : EntityId) (component : Component S) (after : World S σ),
        world.set entity component = .ok false after → after = world) ∧
      ∀ (snapshot : Snapshot) (rows : List (EntityId × List (Component S))),
        world.store.buildRows snapshot = .ok rows →
          ∃ after, world.store.placeAll rows = .ok () after := by
  refine ⟨fun store hreachable => ?_, fun builder order _ call error after => ?_,
    fun world order hreached => ?_⟩
  · have hsound := hreachable.sound
    exact ⟨fun call _ _ => hsound.eq_of_error call, fun _ _ _ => Store.set_false,
      fun _ _ => hsound.exists_placeAll_eq_ok⟩
  · exact Builder.eq_of_error call
  · have hworld := hreached.consistent
    exact ⟨fun call _ _ => hworld.eq_of_error call, fun _ _ _ => World.set_false,
      fun _ _ => hworld.sound.exists_placeAll_eq_ok⟩

/-- Calls that fail on a store with one entity, on a builder with one system and on the world built
from it. The snapshot that the store does not take lists another value for its entity before the
entry that cannot be built, and the entity keeps the value that it has. -/
theorem unchanged_of_error_zoo :
    let lost : Snapshot :=
      (Std.ExtTreeMap.empty.insert 0 (Std.ExtTreeMap.empty.insert "zoo::A"
        (Std.ExtTreeMap.empty.insert "0" (.uint 9)))).insert 1
        (Std.ExtTreeMap.empty.insert "zoo::Lost" ∅)
    let system : System Zoo.schema Unit := { id := Zoo.system 0 }
    let builder := (Builder.Call.addSystem system).run { data := () }
    let world : World Zoo.schema Unit :=
      { systems := [system], plan := [], store := {}, config := {}, data := () }
    (∃ after, Zoo.lone.create [Zoo.plain, Zoo.plain] =
      .error (.duplicateComponent "zoo::A") after ∧ after = Zoo.lone) ∧
    (∃ after, Zoo.lone.restore lost = .error (.unknownComponent "zoo::Lost") after ∧
      after = Zoo.lone) ∧
    (∃ after, Zoo.lone.set 0 (.initial { name := "zoo::B" }) = .ok false after ∧
      after = Zoo.lone) ∧
    (Zoo.lone.buildRows Zoo.lone.snapshot = .ok [(0, [Zoo.plain])] ∧
      ∃ after, Zoo.lone.placeAll [(0, [Zoo.plain])] = .ok () after) ∧
    (∃ after, builder.addSystem system = .error (.duplicateSystem "zoo::Sys<0>") after ∧
      after = builder) ∧
    ∃ after, world.remove 3 = .error (.unknownEntity 3) after ∧ after = world := by
  intro lost system builder world
  obtain ⟨hstores, hbuilders, hworlds⟩ := @unchanged_of_error Zoo.schema Unit
  obtain ⟨herror, hfalse, hrestore⟩ := hstores Zoo.lone ⟨7, [.create [Zoo.plain]], rfl⟩
  have hbuilt : Zoo.lone.buildRows Zoo.lone.snapshot = .ok [(0, [Zoo.plain])] := rfl
  have hbuilder : builder.Reached [] := .call (.addSystem system) (.start ())
  have hworld : world.Reached [] := .built hbuilder rfl
  exact ⟨⟨Zoo.lone, rfl, herror (.create [Zoo.plain, Zoo.plain]) _ _ rfl⟩,
    ⟨Zoo.lone, rfl, herror (.restore lost) _ _ rfl⟩,
    ⟨Zoo.lone, rfl, hfalse 0 (.initial { name := "zoo::B" }) _ rfl⟩,
    ⟨hbuilt, hrestore _ _ hbuilt⟩,
    ⟨builder, rfl, hbuilders builder [] hbuilder (.addSystem system) _ _ rfl⟩,
    ⟨world, rfl, (hworlds world [] hworld).1 (.remove 3) _ _ rfl⟩⟩

end EntityWorld
