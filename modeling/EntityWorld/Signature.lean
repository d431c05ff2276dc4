import EntityWorld.Component
import EntityWorld.Key

namespace EntityWorld

inductive Access where
  | read
  | write
deriving DecidableEq

/-- One thing that an entry point asks for. -/
inductive Param where
  | component (type : TypeId) (access : Access)
  | context
  | state (type : TypeId) (access : Access)

/-- Parameters in the order in which they are declared. No two of them may ask for the same thing,
    and there is a limit on components, so each parameter of an accepted signature has something of
    its own to bind to. -/
abbrev Signature := List Param

/-- How many components an entry point may ask for. -/
def componentLimit : Nat := 11

/-- Why a list of parameters is no acceptable signature. -/
inductive ShapeError where
  | duplicateComponent (component : String)
  | duplicateContext
  | duplicateState (state : String)
  | tooManyComponents (count : Nat)

def ShapeError.message : ShapeError → String
  | duplicateComponent component => s!"component {component} is bound more than once"
  | duplicateContext => "the update context is bound more than once"
  | duplicateState state => s!"more than one ambient state parameter ({state})"
  | tooManyComponents count =>
    s!"{count} component parameters exceed the limit of {componentLimit}"

namespace Signature

def empty : Signature := []

/-- The component types asked for, with the access to each. -/
def components (signature : Signature) : List (TypeId × Access) :=
  signature.filterMap fun
    | .component type access => some (type, access)
    | _ => none

/-- The type of ambient state asked for, with the access to it. -/
def state? (signature : Signature) : Option (TypeId × Access) :=
  signature.findSome? fun
    | .state type access => some (type, access)
    | _ => none

def asksForContext (signature : Signature) : Bool :=
  signature.any fun
    | .context => true
    | _ => false

/-- How many parameters of all kinds there are. -/
def paramCount (signature : Signature) : Nat :=
  signature.components.length + signature.state?.isSome.toNat + signature.asksForContext.toNat

/-- The key of the component types asked for. -/
def key (signature : Signature) (seed : UInt32) : Key :=
  Key.ofNames (signature.components.map fun component => component.1.name) seed

/-- Adds a parameter, unless it asks for what an earlier one asks for. There
    is one context and one ambient state, whatever its type. -/
def add (signature : Signature) (param : Param) : Except ShapeError Signature :=
  match param with
  | .component type _ =>
    if signature.components.any fun component => component.1 = type then
      .error (.duplicateComponent type.name)
    else
      .ok (signature ++ [param])
  | .context =>
    if signature.asksForContext then .error .duplicateContext else .ok (signature ++ [param])
  | .state type _ =>
    if signature.state?.isSome then
      .error (.duplicateState type.name)
    else
      .ok (signature ++ [param])

/-- Whether parameters make an acceptable signature. Repetitions count in the
    order of the parameters, and the limit only counts when nothing repeats. -/
def check (params : List Param) : Except ShapeError Unit := do
  let signature ← params.foldlM add empty
  let count := signature.components.length
  if componentLimit < count then throw (.tooManyComponents count)

end Signature

end EntityWorld
