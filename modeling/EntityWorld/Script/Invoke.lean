import EntityWorld.Script.Basic

namespace EntityWorld

variable {S : Schema}

namespace Arguments

/-- The context among the arguments. -/
def view? : (signature : Signature) → Arguments S signature → Option ContextView
  | [], _ => none
  | .context :: _, (view, _) => some view
  | _ :: signature, (_, rest) => view? signature rest

/-- The field of a component among the arguments. -/
def field? : (signature : Signature) → Arguments S signature → Nat → String → Option Value
  | .component _ _ :: _, (record, _), 0, name => record.get? _ name
  | _ :: signature, (_, rest), param + 1, name => field? signature rest param name
  | _, _, _, _ => none

/-- Whether the argument at a position is a component to be written. -/
def isWritten : Signature → Nat → Bool
  | .component _ .write :: _, 0 => true
  | _ :: signature, param + 1 => isWritten signature param
  | _, _ => false

/-- Sets a field of a component to be written. Other arguments stay as they
    are. -/
def setField : (signature : Signature) → Arguments S signature → Nat → String → Value →
    Except FieldError (Arguments S signature)
  | .component type .write :: _, (record, rest), 0, name, value =>
    (S.setField type record name value).map fun record => (record, rest)
  | _ :: signature, (slot, rest), param + 1, name, value =>
    (setField signature rest param name value).map fun rest => (slot, rest)
  | _, arguments, _, _, _ => .ok arguments

end Arguments

namespace Script

variable {fields : TypeId → List Field}
  {distinct : ∀ type, ((fields type).map Field.name).Nodup}

/-- The ambient state among the arguments. -/
def state? : (signature : Signature) → Arguments (schema fields distinct) signature →
    Option Scalar
  | [], _ => none
  | .state _ _ :: _, (scalar, _) => some scalar
  | _ :: signature, (_, rest) => state? signature rest

/-- Changes the ambient state if it is to be written. -/
def mapState (change : Scalar → Scalar) : (signature : Signature) →
    Arguments (schema fields distinct) signature → Arguments (schema fields distinct) signature
  | [], arguments => arguments
  | .state _ .write :: _, (scalar, rest) => (change scalar, rest)
  | _ :: signature, (slot, rest) => (slot, mapState change signature rest)

/-- An invocation under way: its arguments, how often its system has been
    invoked, and what it has queued. -/
structure Frame (fields : TypeId → List Field)
    (distinct : ∀ type, ((fields type).map Field.name).Nodup) (signature : Signature) where
  arguments : Arguments (schema fields distinct) signature
  calls : Nat
  enqueued : List (Ambient (schema fields distinct)) := []

namespace Frame

variable {signature : Signature}

def view? (frame : Frame fields distinct signature) : Option ContextView :=
  frame.arguments.view? signature

def field? (frame : Frame fields distinct signature) (param : Nat) (name : String) :
    Option Value :=
  frame.arguments.field? signature param name

def setField (frame : Frame fields distinct signature) (param : Nat) (name : String)
    (value : Value) : Except FieldError (Frame fields distinct signature) :=
  (frame.arguments.setField signature param name value).map fun arguments =>
    { frame with arguments }

/-- A value as a number. Lists count their items, and what is neither a
    number nor a truth value counts as zero. -/
def numberOf : Value → Int64
  | .bool b => if b then 1 else 0
  | .int n => n
  | .uint n => n.toInt64
  | .list items => .ofNat items.length
  | _ => 0

/-- A value as a float. What is none counts as zero. -/
def floatOf : Option Value → Float
  | some (.float x) => x
  | _ => 0

end Frame

variable {signature : Signature}

/-- The number that an expression stands for at this point of an invocation.
    Without a context, all that would be read from it is zero. -/
def Expr.eval (frame : Frame fields distinct signature) : Expr → Int64
  | literal n => n
  | calls => .ofNat frame.calls
  | state => ((state? signature frame.arguments).map Scalar.toNumber).getD 0
  | tick => (frame.view?.map fun view => view.tick.count.toInt64).getD 0
  | queued => (frame.view?.map fun view => .ofNat (view.queued + frame.enqueued.length)).getD 0
  | active => (frame.view?.map fun view => .ofNat view.active.size).getD 0
  | inactive => (frame.view?.map fun view => .ofNat view.inactive.size).getD 0
  | field param name => ((frame.field? param name).map Frame.numberOf).getD 0
  | binary op a b => op.apply (a.eval frame) (b.eval frame)

/-- The frame at the end of some steps, and the error if one of them failed.
    The steps before it have had their effect. -/
abbrev Progress (fields : TypeId → List Field)
    (distinct : ∀ type, ((fields type).map Field.name).Nodup) (signature : Signature) :=
  Frame fields distinct signature × Option FieldError

/-- Keeps the frame if a step on it has failed. -/
def Frame.after (frame : Frame fields distinct signature) :
    Except FieldError (Frame fields distinct signature) → Progress fields distinct signature
  | .ok next => (next, none)
  | .error cause => (frame, some cause)

mutual

/-- Takes one step. -/
def Act.run (frame : Frame fields distinct signature) : Act → Progress fields distinct signature
  | .setNumber param field number =>
    frame.after (frame.setField param field (.int (number.eval frame)))
  | .setValue param field value => frame.after (frame.setField param field value)
  | .push param field item =>
    match frame.field? param field with
    | some (.list items) => frame.after (frame.setField param field (.list (items ++ [item])))
    | _ => (frame, none)
  | .addFloat param field other otherField =>
    let sum :=
      Frame.floatOf (frame.field? param field) + Frame.floatOf (frame.field? other otherField)
    frame.after (frame.setField param field (.float sum))
  | .enqueue sample number text =>
    if Signature.asksForContext signature then
      let scalar := sample.assign (number.eval frame) text
      ({ frame with enqueued := frame.enqueued ++ [⟨scalar.type, scalar⟩] }, none)
    else
      (frame, none)
  | .assign number text =>
    let change := fun (scalar : Scalar) => scalar.assign (number.eval frame) text
    ({ frame with arguments := mapState change signature frame.arguments }, none)
  | .branch condition yes no =>
    if condition.eval frame = 0 then runAll frame no else runAll frame yes

/-- Takes steps in their order, up to the first that fails. -/
def runAll (frame : Frame fields distinct signature) :
    List Act → Progress fields distinct signature
  | [] => (frame, none)
  | act :: acts =>
    match act.run frame with
    | (next, none) => runAll next acts
    | (next, some cause) => (next, some cause)

end

def Reply.eval (frame : Frame fields distinct signature) : Reply → Verdict
  | settle isActive => .settled isActive
  | test number => .settled (number.eval frame != 0)
  | fail reason => .failed reason
  | panic message => .panicked message
  | branch condition yes no =>
    if condition.eval frame = 0 then no.eval frame else yes.eval frame

/-- The entry point that a script describes. Its arguments are written down
    before it takes any step. -/
def ShapeScript.toShape (script : ShapeScript) (system shape : Nat) :
    Shape (schema fields distinct) (Ledger (schema fields distinct)) where
  signature := script.signature
  invoke arguments ledger :=
    let calls := ledger.counts.getD system 0 + 1
    let call : Call (schema fields distinct) :=
      { system, shape, arguments := arguments.toList script.signature }
    let data : Ledger (schema fields distinct) :=
      { counts := ledger.counts.insert system calls, calls := ledger.calls.push call }
    let (frame, cause) := runAll { arguments, calls } script.acts
    let verdict : Verdict := match cause with
      | some cause => .failed cause.message
      | none => script.reply.eval frame
    let verdict : Verdict := match verdict with
      | .failed reason => if script.plain then .settled false else .failed reason
      | other => other
    { arguments := frame.arguments, data, enqueued := frame.enqueued, verdict }

/-- The system that a script describes. -/
def SystemScript.toSystem (script : SystemScript) :
    System (schema fields distinct) (Ledger (schema fields distinct)) where
  id := script.id
  after := script.after
  shapes := script.shapes.mapIdx fun shape entry => entry.toShape script.number shape

end Script

end EntityWorld
