import EntityWorld.Store.Snapshot
import EntityWorld.Update.Engine

namespace EntityWorld

variable {S : Schema} {σ : Type}

/-- A world: its systems with their plan and their private data, the store of its entities, and the
    context of its updates. The systems, the plan and the configuration stay the same, and entities
    come, change and go. -/
structure World (S : Schema) (σ : Type) where
  systems : List (System S σ)
  plan : Plan
  store : Store S
  context : Context S := .empty
  config : Config
  data : σ

namespace World

/-- The answer of an operation and the world it leaves, also when it fails. -/
abbrev Result (S : Schema) (σ α : Type) := EStateM.Result Error (World S σ) α

/-- The names of the systems in the order in which they run. -/
def order (world : World S σ) : List String :=
  Plan.order world.plan

/-- Puts the store that an operation leaves in the place of a world's own. -/
def withStore {α : Type} (world : World S σ) : Store.Result S α → Result S σ α
  | .error error store => .error error { world with store }
  | .ok answer store => .ok answer { world with store }

def create (world : World S σ) (components : List (Component S)) : Result S σ EntityId :=
  world.withStore (world.store.create components)

/-- Creates an entity with initial components of the given types. -/
def createInitial (world : World S σ) (types : List TypeId) : Result S σ EntityId :=
  world.create (types.map Component.initial)

/-- Removes an entity, from the context too. -/
def remove (world : World S σ) (entity : EntityId) : Result S σ Unit :=
  match world.store.remove entity with
  | .error error store => .error error { world with store }
  | .ok _ store => .ok () { world with store, context := world.context.forget entity }

def set (world : World S σ) (entity : EntityId) (component : Component S) : Result S σ Bool :=
  world.withStore (world.store.set entity component)

def modify (world : World S σ) (entity : EntityId) (type : TypeId)
    (change : Record (S.fields type) → Record (S.fields type)) :
    Result S σ (Record (S.fields type)) :=
  world.withStore (world.store.modify entity type change)

def setField (world : World S σ) (entity : EntityId) (type : TypeId) (field : String)
    (value : Value) : Result S σ (Record (S.fields type)) :=
  world.withStore (world.store.setField entity type field value)

def register (world : World S σ) (type : TypeId) : World S σ :=
  { world with store := world.store.register type }

def restore (world : World S σ) (snapshot : Snapshot) : Result S σ Unit :=
  world.withStore (world.store.restore snapshot)

/-- Runs an update. The state it leaves is the world and the ambient state of
    the caller. `limit` bounds the passes that a recursive update makes for
    queued states, of which there may be no end. -/
def updateWith (world : World S σ) (limit : Nat) (ambient : Option (Ambient S))
    (strategy : Strategy) (inactive : InactiveHandling) :
    Run S (World S σ × Option (Ambient S)) :=
  let run := Engine.update world.systems world.plan limit strategy inactive
    { store := world.store, context := world.context, data := world.data, ambient }
  { run with
    state :=
      ({ world with
          store := run.state.store
          context := run.state.context
          data := run.state.data },
        run.state.ambient) }

/-- Runs an update as configured. -/
def update (world : World S σ) (limit : Nat) (ambient : Option (Ambient S)) :
    Run S (World S σ × Option (Ambient S)) :=
  world.updateWith limit ambient world.config.strategy world.config.inactive

end World

end EntityWorld
