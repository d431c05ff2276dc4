import EntityWorld.Proofs.Store.Placement
import EntityWorld.World.Builder

namespace EntityWorld

variable {S : Schema} {σ : Type}

/-- An operation on a world in the making, with its arguments. All but two kinds of them come down
to calls on the store. -/
inductive Builder.Call (S : Schema) (σ : Type) where
  | seed (value : UInt32)
  | configure (config : Config)
  | addSystem (system : System S σ)
  | create (components : List (Component S))
  | createInitial (types : List TypeId)
  | register (type : TypeId)

namespace Builder.Call

/-- What a call answers unless it fails. -/
def Answer : Builder.Call S σ → Type
  | seed _ | configure _ | addSystem _ | register _ => Unit
  | create _ | createInitial _ => EntityId

/-- What a call answers, or the error that it fails with, and the builder that it leaves. -/
def result (builder : Builder S σ) : (call : Builder.Call S σ) → Result S σ call.Answer
  | seed value => .ok () (builder.seed value)
  | configure config => .ok () (builder.configure config)
  | addSystem system => builder.addSystem system
  | create components => builder.create components
  | createInitial types => builder.createInitial types
  | register type => .ok () (builder.register type)

/-- The builder that a call leaves, also when it fails. -/
def run (call : Builder.Call S σ) (builder : Builder S σ) : Builder S σ :=
  stateOf (call.result builder)

/-- The call on the store that a call comes down to, if it touches the store. -/
def onStore? : Builder.Call S σ → Option (Store.Call S)
  | seed value => some (.reseed value)
  | configure config => some (.reseed config.seed)
  | addSystem _ => none
  | create components => some (.create components)
  | createInitial types => some (.create (types.map Component.initial))
  | register type => some (.register type)

end Builder.Call

/-- An operation on a world that is no update, with its arguments. Each of them comes down to a call
on the store. -/
inductive World.Call (S : Schema) where
  | create (components : List (Component S))
  | createInitial (types : List TypeId)
  | remove (entity : EntityId)
  | set (entity : EntityId) (component : Component S)
  | modify (entity : EntityId) (type : TypeId)
      (change : Record (S.fields type) → Record (S.fields type))
  | setField (entity : EntityId) (type : TypeId) (field : String) (value : Value)
  | register (type : TypeId)
  | restore (snapshot : Snapshot)

namespace World.Call

/-- What a call answers unless it fails. -/
def Answer : World.Call S → Type
  | create _ | createInitial _ => EntityId
  | remove _ | register _ | restore _ => Unit
  | set _ _ => Bool
  | modify _ type _ | setField _ type _ _ => Record (S.fields type)

/-- What a call answers, or the error that it fails with, and the world that it leaves. -/
def result (world : World S σ) : (call : World.Call S) → Result S σ call.Answer
  | create components => world.create components
  | createInitial types => world.createInitial types
  | remove entity => world.remove entity
  | set entity component => world.set entity component
  | modify entity type change => world.modify entity type change
  | setField entity type field value => world.setField entity type field value
  | register type => .ok () (world.register type)
  | restore snapshot => world.restore snapshot

/-- The world that a call leaves, also when it fails. -/
def run (call : World.Call S) (world : World S σ) : World S σ :=
  stateOf (call.result world)

/-- The call on the store that a call comes down to. -/
def onStore : World.Call S → Store.Call S
  | create components => .create components
  | createInitial types => .create (types.map Component.initial)
  | remove entity => .remove entity
  | set entity component => .set entity component
  | modify entity type change => .modify entity type change
  | setField entity type field value => .setField entity type field value
  | register type => .register type
  | restore snapshot => .restore snapshot

end World.Call

/-- A builder that calls lead to, and the order in which its entities were last placed. -/
inductive Builder.Reached : Builder S σ → List EntityId → Prop
  | start (data : σ) : Reached { data } []
  | call {builder : Builder S σ} {order : List EntityId} (call : Builder.Call S σ)
      (before : Reached builder order) :
      Reached (call.run builder)
        (call.onStore?.elim order fun onStore => onStore.reorder builder.store order)

/-- A world that calls and updates lead to, and the order in which its entities were last placed. An
update, however it ends, places none. -/
inductive World.Reached : World S σ → List EntityId → Prop
  | built {builder : Builder S σ} {order : List EntityId} {world : World S σ}
      (before : builder.Reached order) (build : builder.build = .ok world) : Reached world order
  | call {world : World S σ} {order : List EntityId} (call : World.Call S)
      (before : Reached world order) :
      Reached (call.run world) (call.onStore.reorder world.store order)
  | update {world : World S σ} {order : List EntityId} (limit : Nat)
      (ambient : Option (Ambient S)) (strategy : Strategy) (inactive : InactiveHandling)
      (before : Reached world order) :
      Reached (world.updateWith limit ambient strategy inactive).state.1 order

end EntityWorld
