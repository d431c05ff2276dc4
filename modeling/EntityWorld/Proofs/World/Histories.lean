import EntityWorld.Proofs.Component.Accessors
import EntityWorld.Proofs.Store.SetBack
import EntityWorld.Proofs.Update.Deeds
import EntityWorld.Proofs.World.Reached

namespace EntityWorld.Store

variable {S : Schema} {σ : Type}

/-- A call on a store, or an update of a world that has the store for its own. What holds after any
of these holds of a store however it is used. -/
inductive Operation (S : Schema) (σ : Type) where
  | call (call : Call S)
  | update (world : World S σ) (limit : Nat) (ambient : Option (Ambient S)) (strategy : Strategy)
      (inactive : InactiveHandling)

namespace Operation

/-- The store that an operation leaves, however it ends. -/
def run : Operation S σ → Store S → Store S
  | call made, store => made.run store
  | update world limit ambient strategy inactive, store =>
    ({ world with store }.updateWith limit ambient strategy inactive).state.1.store

/-- The store that operations leave when they are made one after another. -/
def runAll : List (Operation S σ) → Store S → Store S
  | [], store => store
  | operation :: operations, store => runAll operations (operation.run store)

/-- What an operation does to the rows of a store. -/
def deeds (store : Store S) : Operation S σ → List (Deed S)
  | call made => made.deeds store
  | update world limit ambient strategy inactive =>
    Engine.updateDeeds world.systems world.plan limit strategy inactive
      { store, context := world.context, data := world.data, ambient }

/-- What operations do one after another. -/
def history : List (Operation S σ) → Store S → List (Deed S)
  | [], _ => []
  | operation :: operations, store =>
    operation.deeds store ++ history operations (operation.run store)

theorem runAll_append (past future : List (Operation S σ)) (store : Store S) :
    runAll (past ++ future) store = runAll future (runAll past store) := by
  induction past generalizing store with
  | nil => rfl
  | cons operation past ih => exact ih (operation.run store)

/-- An update only changes the values of components, so whatever says nothing of these is kept. -/
theorem sameLayout_update (world : World S σ) (limit : Nat) (ambient : Option (Ambient S))
    (strategy : Strategy) (inactive : InactiveHandling) (store : Store S) :
    store.SameLayout ((update world limit ambient strategy inactive).run store) :=
  Engine.sameLayout_update world.systems world.plan limit strategy inactive
    { store, context := world.context, data := world.data, ambient }

end Operation

theorem Sound.operate {store : Store S} (hsound : store.Sound) (operation : Operation S σ) :
    (operation.run store).Sound := by
  cases operation with
  | call made => exact hsound.run made
  | update world limit ambient strategy inactive =>
    exact hsound.of_sameLayout (Operation.sameLayout_update ..)

theorem Sound.operateAll {store : Store S} (hsound : store.Sound)
    (operations : List (Operation S σ)) : (Operation.runAll operations store).Sound := by
  induction operations generalizing store with
  | nil => exact hsound
  | cons operation operations ih => exact ih (hsound.operate operation)

/-- After any operations the lists under the keys follow some order of placement. -/
theorem exists_indexed_operateAll {store : Store S} (hsound : store.Sound) {order : List EntityId}
    (hindexed : store.Indexed order) (operations : List (Operation S σ)) :
    ∃ placed, (Operation.runAll operations store).Indexed placed := by
  induction operations generalizing store order with
  | nil => exact ⟨order, hindexed⟩
  | cons operation operations ih =>
    have hlater := hsound.operate operation
    cases operation with
    | call made => exact ih hlater (hindexed.run hsound made)
    | update world limit ambient strategy inactive =>
      exact ih hlater (hindexed.of_sameLayout (Operation.sameLayout_update ..))

/-- The store that an operation leaves has what its deeds say, be it a call that fails or an update
that stops. -/
theorem Sound.follows_operate {store : Store S} (hsound : store.Sound)
    (operation : Operation S σ) :
    store.Follows (operation.deeds store) (operation.run store) := by
  cases operation with
  | call made => exact hsound.follows_run made
  | update world limit ambient strategy inactive =>
    exact Engine.follows_update world.systems world.plan limit strategy inactive
      { store, context := world.context, data := world.data, ambient }

/-- The store that operations leave has what the latest of all their deeds says, whichever operation
did it. -/
theorem Sound.follows_operateAll {store : Store S} (hsound : store.Sound)
    (operations : List (Operation S σ)) :
    store.Follows (Operation.history operations store) (Operation.runAll operations store) := by
  induction operations generalizing store with
  | nil => exact .of_rows fun _ => rfl
  | cons operation operations ih =>
    exact (hsound.follows_operate operation).trans (ih (hsound.operate operation))

/-- Setting a component succeeds exactly where the entity has one of its type, and then changes that
one only. Else nothing changes. -/
theorem set_outcomes (store : Store S) (entity : EntityId) (component : Component S) :
    ((∃ after, store.set entity component = .ok true after) ↔
      store.has entity component.type = true) ∧
    (∀ after, store.set entity component = .ok true after → store.Puts entity component after) ∧
    (store.has entity component.type = false → store.set entity component =
      if entity ∈ store.rows then .ok false store else .error (.unknownEntity entity) store) := by
  refine ⟨?_, fun after hset => (set_eq_true hset).puts, fun hlacks => ?_⟩
  · rcases store.set_cases entity component with
      ⟨hrow, hcase⟩ | ⟨row, hrow, hmissing, hcase⟩ | ⟨after, hstores, hcase⟩
    · simp [hcase, has, hrow]
    · simp [hcase, has, hrow, Row.contains_iff, hmissing]
    · exact iff_of_true ⟨after, hcase⟩ hstores.has
  · rcases store.set_cases entity component with
      ⟨hrow, hcase⟩ | ⟨row, hrow, hmissing, hcase⟩ | ⟨after, hstores, hcase⟩
    · rw [hcase, if_neg]
      simp [mem_iff_exists_getElem?, hrow]
    · rw [hcase, if_pos (mem_iff_exists_getElem?.mpr ⟨row, hrow⟩)]
    · cases hlacks.symm.trans hstores.has

/-- A component that an entity has can be changed in place, which puts what the change makes of it
in its place and answers it. What is not found is not changed. -/
theorem modify_outcomes (store : Store S) (entity : EntityId) (type : TypeId)
    (change : Record (S.fields type) → Record (S.fields type)) :
    (∀ found, store.get entity type = .ok found → ∃ after,
      store.modify entity type change = .ok (change found) after ∧
      store.Puts entity ⟨type, change found⟩ after) ∧
    ∀ error, store.get entity type = .error error →
      store.modify entity type change = .error error store := by
  refine ⟨fun found hget => ?_, fun error hget => modify_of_get_error hget change⟩
  obtain ⟨after, hmodify, hstores⟩ := modify_of_get hget change
  exact ⟨after, hmodify, hstores.puts⟩

/-- A field of a component that an entity has can be set in place to a value that fits it, which
puts a component with that field set in its place. Else the field is at fault, or the component is
not found, and nothing changes. -/
theorem setField_outcomes (store : Store S) (entity : EntityId) (type : TypeId) (field : String)
    (value : Value) :
    (∀ found, store.get entity type = .ok found →
      (S.Fits type field value → ∃ changed after,
        store.setField entity type field value = .ok changed after ∧
        Component.Sets ⟨type, found⟩ field value ⟨type, changed⟩ ∧
        store.Puts entity ⟨type, changed⟩ after) ∧
      ∀ error, S.Fault type field value error →
        store.setField entity type field value = .error (.field error) store) ∧
    ∀ error, store.get entity type = .error error →
      store.setField entity type field value = .error error store := by
  refine ⟨fun found hget => ?_, fun error hget => setField_of_get_error hget field value⟩
  obtain ⟨herror, hok⟩ := @setField_cases S store entity ⟨type, found⟩ hget field value
  refine ⟨fun hfits => ?_, fun error hfault => herror error (Component.set_eq_error_iff.mpr hfault)⟩
  obtain ⟨changed, hset⟩ := (@Component.exists_set_eq_ok_iff S ⟨type, found⟩ field value).mpr hfits
  obtain ⟨_, record⟩ := changed
  obtain rfl : _ = type := Component.type_set hset
  obtain ⟨after, hafter, hstores⟩ := hok record hset
  exact ⟨record, after, hafter, (Component.set_eq_ok hset).2, hstores.puts⟩

/-- After any calls and updates the types in each row ascend, so that none is there twice, each name
in a row can be built, and whatever is built by a name has that name. What is found of an entity and
a type, of exactly this type, is what was last stored there since the entity last got its
components. Setting a component, changing it in place and setting one of its fields change what is
found of its entity and its type only, and setting the store back stores what the snapshot lists. -/
theorem rows_of_operations (seed : UInt32) (operations : List (Operation S σ)) :
    let store := Operation.runAll operations (.empty seed)
    let deeds := Operation.history operations (.empty seed)
    (∀ (entity : EntityId) (row : Row S), store.rows[entity]? = some row →
      row.Ascending ∧ row.types.Nodup ∧
      ∀ type ∈ row.types, ∃ component, store.build? type.name = some component) ∧
    (∀ name component, store.build? name = some component → component.name = name) ∧
    (∀ (entity : EntityId) (type : TypeId),
      store.get entity type = ((Deed.latest? deeds entity type).getD .unknown).answer entity ∧
      (store.get entity type = .error (.unknownEntity entity) ↔ entity ∉ store.rows) ∧
      (store.get entity type = .error (.missingComponent entity type.name) ↔
        ∃ row, store.rows[entity]? = some row ∧ type ∉ row.types) ∧
      (∀ record, store.get entity type = .ok record ↔
        ∃ row, store.rows[entity]? = some row ∧ ⟨type, record⟩ ∈ row) ∧
      (store.has entity type = true ↔ ∃ record, store.get entity type = .ok record)) ∧
    (∀ (entity : EntityId) (component : Component S),
      ((∃ after, store.set entity component = .ok true after) ↔
        store.has entity component.type = true) ∧
      (∀ after, store.set entity component = .ok true after → store.Puts entity component after) ∧
      (store.has entity component.type = false → store.set entity component =
        if entity ∈ store.rows then .ok false store else .error (.unknownEntity entity) store)) ∧
    (∀ (entity : EntityId) (type : TypeId) (change : Record (S.fields type) → Record (S.fields type)),
      (∀ found, store.get entity type = .ok found → ∃ after,
        store.modify entity type change = .ok (change found) after ∧
        store.Puts entity ⟨type, change found⟩ after) ∧
      ∀ error, store.get entity type = .error error →
        store.modify entity type change = .error error store) ∧
    (∀ (entity : EntityId) (type : TypeId) (field : String) (value : Value),
      (∀ found, store.get entity type = .ok found →
        (S.Fits type field value → ∃ changed after,
          store.setField entity type field value = .ok changed after ∧
          Component.Sets ⟨type, found⟩ field value ⟨type, changed⟩ ∧
          store.Puts entity ⟨type, changed⟩ after) ∧
        ∀ error, S.Fault type field value error →
          store.setField entity type field value = .error (.field error) store) ∧
      ∀ error, store.get entity type = .error error →
        store.setField entity type field value = .error error store) ∧
    ∀ (snapshot : Snapshot) (after : Store S), store.restore snapshot = .ok () after →
      (∀ (entity : EntityId) (components : RowSnapshot), snapshot[entity]? = some components →
        ∃ row, after.rows[entity]? = some row ∧ store.SetBack components row) ∧
      ∀ entity, entity ∉ snapshot → after.rows[entity]? = store.rows[entity]? := by
  intro store deeds
  have hempty : (empty seed : Store S).Sound := .empty seed
  have hsound : store.Sound := hempty.operateAll operations
  have hfollows : (empty seed).Follows deeds store := hempty.follows_operateAll operations
  refine ⟨fun entity row hrow => ?_, fun name component hbuild => ?_, fun entity type => ?_,
    store.set_outcomes, store.modify_outcomes, store.setField_outcomes,
    fun snapshot after hrestore => ?_⟩
  · have hascending := hsound.ascending hrow
    refine ⟨hascending, hascending.nodup, fun type htype => ?_⟩
    obtain ⟨found, hfound⟩ := mem_iff_exists_getElem?.mp (hsound.known hrow type htype)
    exact ⟨.initial found, by rw [build?, hfound, Option.map_some]⟩
  · obtain ⟨type, hknown, rfl⟩ := Option.map_eq_some_iff.mp hbuild
    exact hsound.named hknown
  · have hcell : store.cell entity type = (Deed.latest? deeds entity type).getD .unknown := by
      rw [hfollows entity type, cell, empty]
      rfl
    refine ⟨?_, get_eq_unknown_iff, get_eq_missing_iff, fun record => hsound.get_eq_ok_iff_mem,
      has_iff⟩
    rw [get_eq_answer, hcell]
  · obtain ⟨hlisted, hothers, _⟩ := hsound.placed_of_restore hrestore
    exact ⟨hlisted, hothers⟩

/-- A component is not found by the other type of its name. -/
example :
    let operations : List (Operation Zoo.schema Unit) := [.call (.create [.initial Zoo.secondTwin])]
    (Operation.runAll operations (.empty 7)).get 0 { name := "zoo::_::Twin" } =
      .error (.missingComponent 0 "zoo::_::Twin") := rfl

end EntityWorld.Store

namespace EntityWorld

variable {S : Schema} {σ : Type}

/-- The store of every builder is one that such operations lead to. A change of the configuration
comes down to a change of the seed. -/
theorem Builder.Reached.exists_operations {builder : Builder S σ} {order : List EntityId}
    (hreached : builder.Reached order) :
    ∃ operations : List (Store.Operation S σ),
      Store.Operation.runAll operations (.empty 0) = builder.store := by
  induction hreached with
  | start data => exact ⟨[], rfl⟩
  | @call builder order call _ ih =>
    obtain ⟨operations, hbefore⟩ := ih
    rw [call.store_run]
    cases call.onStore? with
    | none => exact ⟨operations, hbefore⟩
    | some onStore =>
      refine ⟨operations ++ [.call onStore], ?_⟩
      rw [Store.Operation.runAll_append, hbefore]
      rfl

/-- The store of every world that calls and updates lead to is one that such operations lead to. So
all that holds of these stores holds of the stores of worlds. -/
theorem World.Reached.exists_operations {world : World S σ} {order : List EntityId}
    (hreached : world.Reached order) :
    ∃ operations : List (Store.Operation S σ),
      Store.Operation.runAll operations (.empty 0) = world.store := by
  induction hreached with
  | built before build =>
    obtain ⟨plan, _, rfl⟩ := Builder.build_eq_ok build
    exact before.exists_operations
  | @call world order call _ ih =>
    obtain ⟨operations, hbefore⟩ := ih
    refine ⟨operations ++ [.call call.onStore], ?_⟩
    rw [Store.Operation.runAll_append, hbefore, call.run_eq]
    rfl
  | @update world order limit ambient strategy inactive _ ih =>
    obtain ⟨operations, hbefore⟩ := ih
    refine ⟨operations ++ [.update world limit ambient strategy inactive], ?_⟩
    rw [Store.Operation.runAll_append, hbefore]
    rfl

end EntityWorld
