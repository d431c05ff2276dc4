import EntityWorld.Plan.Digraph
import EntityWorld.System

namespace EntityWorld

variable {S : Schema} {σ : Type}

/-- One line of a plan: an entry point by the numbers of its system and of
    itself, and what it takes to find the entities that it runs on. -/
structure Plan.Line where
  system : Nat
  shape : Nat
  name : String
  key : Key
  params : Nat
  state? : Option TypeId

/-- A line that asks for no component can never find an entity. -/
def Plan.Line.canMatch (line : Plan.Line) : Bool :=
  0 < line.params && !line.key.isIdentity

/-- The plan of a pass: every entry point of every system, in an order that respects
    dependencies. -/
abbrev Plan := List Plan.Line

namespace Plan

/-- The graph of dependencies between systems. A system that others depend on
    but that is not among them has no part in it. -/
def graph (systems : List (System S σ)) : Digraph where
  size := systems.length
  edge i j := systems[j].after.contains systems[i].id

/-- The numbers of systems in the order in which they run. -/
def systemOrder (systems : List (System S σ)) : Except Error (List (Fin systems.length)) :=
  (graph systems).sort.mapError fun blocked =>
    .dependencyCycle (blocked.map fun (i : Fin systems.length) => systems[i].id.name)

/-- The lines of one system, in the order of its entry points. -/
def linesOf (system : System S σ) (number : Nat) (seed : UInt32) : Plan :=
  system.shapes.mapIdx fun shape entry =>
    { system := number
      shape
      name := system.id.name
      key := Signature.key entry.signature seed
      params := entry.signature.length
      state? := (Signature.state? entry.signature).map Prod.fst }

/-- The plan for systems, with keys under a seed. -/
def build (systems : List (System S σ)) (seed : UInt32) : Except Error Plan :=
  (systemOrder systems).map fun order =>
    order.flatMap fun (i : Fin systems.length) => linesOf systems[i] i seed

/-- A list without the entries that repeat the one before them. -/
def withoutRepeats : List String → List String
  | first :: second :: rest =>
    if first = second then withoutRepeats (second :: rest)
    else first :: withoutRepeats (second :: rest)
  | short => short

/-- The names of the systems in the order in which they run. -/
def order (plan : Plan) : List String :=
  withoutRepeats (plan.map Plan.Line.name)

end Plan

end EntityWorld
