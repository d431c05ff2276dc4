import EntityWorld.EntitySet
import EntityWorld.Signature

namespace EntityWorld

/-- What can go wrong in a world. -/
inductive Error where
  | duplicateComponent (component : String)
  | idsExhausted
  | unknownEntity (entity : EntityId)
  | missingComponent (entity : EntityId) (component : String)
  | unknownComponent (component : String)
  | duplicateSystem (system : String)
  | dependencyCycle (systems : List String)
  | invalidShape (system : String) (cause : ShapeError)
  | systemFailed (system reason : String)
  | field (cause : FieldError)

/-- The words for what went wrong. -/
def Error.message : Error → String
  | duplicateComponent component =>
    s!"Invalid component set: {component} requested more than once"
  | idsExhausted => "Entity ids exhausted"
  | unknownEntity entity => s!"Entity {entity} not found"
  | missingComponent entity component => s!"Entity {entity} has no component {component}"
  | unknownComponent component => s!"Unknown component type {component}"
  | duplicateSystem system => s!"System {system} is already registered"
  | dependencyCycle systems =>
    "Dependency cycle detected between systems: " ++ ", ".intercalate systems
  | invalidShape system cause =>
    s!"System {system} declares an unresolvable shape: {cause.message}"
  | systemFailed system reason => s!"System {system} failed: {reason}"
  | field cause => cause.message

end EntityWorld
