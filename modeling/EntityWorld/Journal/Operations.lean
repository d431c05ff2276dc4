import EntityWorld.World.Builder

namespace EntityWorld.Journal

variable {S : Schema} {σ τ : Type}

/-- The events of an operation that is no update are read off the answer that it gives. One that
    fails changes nothing, and so nothing has happened. -/
def ofCreate : EStateM.Result Error τ EntityId → List (Event S)
  | .ok entity _ => [.created entity]
  | .error _ _ => []

def ofPlace (entity : EntityId) : EStateM.Result Error τ Unit → List (Event S)
  | .ok _ _ => [.placed entity]
  | .error _ _ => []

def ofRemove {α : Type} (entity : EntityId) : EStateM.Result Error τ α → List (Event S)
  | .ok _ _ => [.removed entity]
  | .error _ _ => []

def ofSet (entity : EntityId) (component : Component S) :
    EStateM.Result Error τ Bool → List (Event S)
  | .ok false _ => [.setIgnored entity component.name]
  | _ => []

/-- All entities in a snapshot are placed, in ascending order. -/
def ofRestore (snapshot : Snapshot) : EStateM.Result Error τ Unit → List (Event S)
  | .ok _ _ => snapshot.keys.map .placed
  | .error _ _ => []

def ofAddSystem (system : System S σ) : EStateM.Result Error τ Unit → List (Event S)
  | .ok _ _ => [.registered system.id.name system.shapes.length]
  | .error _ _ => []

/-- The dependencies on systems that are not among those given. -/
def ignoredDependencies (systems : List (System S σ)) : List (Event S) :=
  systems.flatMap fun system =>
    (system.after.filter fun other => !systems.any fun found => found.id = other).map fun other =>
      .dependencyIgnored system.id.name other.name

/-- The lines of a plan. A line without components is pointed out first. -/
def ofLines (plan : Plan) : List (Event S) :=
  plan.zipIdx.flatMap fun (line, number) =>
    if line.key.isIdentity then [.idle line, .planned number line] else [.planned number line]

/-- Making a plan for systems. -/
def ofPlan (systems : List (System S σ)) (seed : UInt32) : List (Event S) :=
  .resolving :: ignoredDependencies systems ++
    match Plan.build systems seed with
    | .error _ => []
    | .ok plan => ofLines plan ++ [.planReady systems.length plan.length]

/-- Finishing a world. -/
def ofBuild (builder : Builder S σ) : List (Event S) :=
  .building builder.systems.length builder.store.size builder.config.seed ::
    ofPlan builder.systems builder.config.seed

end EntityWorld.Journal
