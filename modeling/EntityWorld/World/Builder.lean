import EntityWorld.World.Basic

namespace EntityWorld

variable {S : Schema} {σ : Type}

/-- A world in the making. Systems, entities and the configuration are added in any order. `data` is
    the private data of its systems. -/
structure Builder (S : Schema) (σ : Type) where
  systems : List (System S σ) := []
  store : Store S := {}
  config : Config := {}
  data : σ

namespace Builder

/-- The answer of an operation and the builder it leaves, also when it fails. -/
abbrev Result (S : Schema) (σ α : Type) := EStateM.Result Error (Builder S σ) α

/-- Sets the seed of the keys. Entities created before get new keys. -/
def seed (builder : Builder S σ) (seed : UInt32) : Builder S σ :=
  { builder with
    config := { builder.config with seed }
    store := builder.store.reseed seed }

/-- Sets the configuration, and with it the seed of the keys. -/
def configure (builder : Builder S σ) (config : Config) : Builder S σ :=
  { builder with config, store := builder.store.reseed config.seed }

/-- Adds a system, unless it is there already or cannot run as declared. -/
def addSystem (builder : Builder S σ) (system : System S σ) : Result S σ Unit :=
  if builder.systems.any fun other => other.id = system.id then
    .error (.duplicateSystem system.id.name) builder
  else
    match system.check with
    | .error error => .error error builder
    | .ok () => .ok () { builder with systems := builder.systems ++ [system] }

def create (builder : Builder S σ) (components : List (Component S)) : Result S σ EntityId :=
  match builder.store.create components with
  | .error error store => .error error { builder with store }
  | .ok entity store => .ok entity { builder with store }

/-- Creates an entity with initial components of the given types. -/
def createInitial (builder : Builder S σ) (types : List TypeId) : Result S σ EntityId :=
  builder.create (types.map Component.initial)

def register (builder : Builder S σ) (type : TypeId) : Builder S σ :=
  { builder with store := builder.store.register type }

/-- Finishes the world. It fails if no order of the systems respects their
    dependencies. -/
def build (builder : Builder S σ) : Except Error (World S σ) :=
  (Plan.build builder.systems builder.config.seed).map fun plan =>
    { systems := builder.systems
      plan
      store := builder.store
      config := builder.config
      data := builder.data }

end Builder

end EntityWorld
