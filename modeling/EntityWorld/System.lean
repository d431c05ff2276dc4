import EntityWorld.Store.Row
import EntityWorld.Update.Context

namespace EntityWorld

variable {S : Schema} {σ : Type}

/-- What an entry point gets for a parameter. -/
def Param.Slot (S : Schema) : Param → Type
  | component type _ => Record (S.fields type)
  | context => ContextView
  | state type _ => S.State type

/-- Finds what a parameter asks for: the component of exactly the type, and
    the ambient state only if it is of exactly the type. -/
def Param.bind? (row : Row S) (ambient : Option (Ambient S)) (view : ContextView) :
    (param : Param) → Option (param.Slot S)
  | component type _ => row.find? type
  | context => some view
  | state type _ =>
    match ambient with
    | none => none
    | some ⟨found, value⟩ => if h : found = type then some (h ▸ value) else none

/-- One argument for each parameter. -/
def Arguments (S : Schema) : Signature → Type
  | [] => Unit
  | param :: signature => param.Slot S × Arguments S signature

namespace Arguments

/-- Finds what all parameters ask for, or nothing if one of them is missing. -/
def bind? (row : Row S) (ambient : Option (Ambient S)) (view : ContextView) :
    (signature : Signature) → Option (Arguments S signature)
  | [] => some ()
  | param :: signature => do
    let slot ← param.bind? row ambient view
    let rest ← bind? row ambient view signature
    return (slot, rest)

/-- Puts the components that are declared as written back into a row. -/
def writeRow : (signature : Signature) → Arguments S signature → Row S → Row S
  | [], _, row => row
  | .component type .write :: signature, (record, rest), row =>
    writeRow signature rest (row.replace ⟨type, record⟩)
  | _ :: signature, (_, rest), row => writeRow signature rest row

/-- The ambient state after the one declared as written has been put back. -/
def writeAmbient : (signature : Signature) → Arguments S signature → Option (Ambient S) →
    Option (Ambient S)
  | [], _, ambient => ambient
  | .state type .write :: signature, (value, rest), _ =>
    writeAmbient signature rest (some ⟨type, value⟩)
  | _ :: signature, (_, rest), ambient => writeAmbient signature rest ambient

end Arguments

/-- An argument together with what it is an argument for. -/
inductive Argument (S : Schema) where
  | component (component : Component S)
  | context (view : ContextView)
  | state (ambient : Ambient S)

/-- The arguments in the order of their parameters. -/
def Arguments.toList : (signature : Signature) → Arguments S signature → List (Argument S)
  | [], _ => []
  | .component type _ :: signature, (record, rest) =>
    .component ⟨type, record⟩ :: toList signature rest
  | .context :: signature, (view, rest) => .context view :: toList signature rest
  | .state type _ :: signature, (value, rest) => .state ⟨type, value⟩ :: toList signature rest

/-- What becomes of an entity by an invocation, or how the invocation fails. -/
inductive Verdict where
  | settled (isActive : Bool)
  | failed (reason : String)
  | panicked (message : String)

/-- What an invocation leaves: its arguments as it has changed them, the
    private data, the states to queue in their order, and the verdict. -/
structure Outcome (S : Schema) (σ : Type) (signature : Signature) where
  arguments : Arguments S signature
  data : σ
  enqueued : List (Ambient S) := []
  verdict : Verdict

/-- An entry point of a system: a function of its arguments, one for each parameter of its
    signature, and of the private data that systems share among themselves. Binding looks the
    arguments up, and afterwards only what the signature declares as written goes back. -/
structure Shape (S : Schema) (σ : Type) where
  signature : Signature
  invoke : Arguments S signature → σ → Outcome S σ signature

/-- A system: its entry points, and the systems that have to run before it. -/
structure System (S : Schema) (σ : Type) where
  id : TypeId
  after : List TypeId := []
  shapes : List (Shape S σ) := []

/-- The first entry point whose parameters make no acceptable signature
    decides the error. -/
def System.check (system : System S σ) : Except Error Unit :=
  system.shapes.forM fun shape =>
    (Signature.check shape.signature).mapError (.invalidShape system.id.name)

end EntityWorld
