import EntityWorld.Journal.Event
import EntityWorld.Store.Basic

namespace EntityWorld

/-- Why a run ends early. -/
inductive Stop where
  | failed (error : Error)
  | panicked (message : String)
  | unfinished

/-- A piece of work: the state it leaves, what happened, and why it stopped unless it came to its
    end. Whatever stops a run keeps the changes made until then, so a run always has a state. -/
structure Run (S : Schema) (τ : Type) where
  state : τ
  events : List (Event S) := []
  stop : Option Stop := none

namespace Run

variable {S : Schema} {τ ι : Type}

/-- Goes on with more work, unless the work before has stopped. -/
def andThen (run : Run S τ) (next : τ → Run S τ) : Run S τ :=
  match run.stop with
  | some _ => run
  | none =>
    let rest := next run.state
    { rest with events := run.events ++ rest.events }

/-- Does the same work for one item after another, up to the first stop. -/
def forEach (work : ι → τ → Run S τ) : List ι → τ → Run S τ
  | [], state => { state }
  | item :: items, state => (work item state).andThen (forEach work items)

end Run

/-- What a pass works on: the store, the context, the private data of the
    systems, and the ambient state if there is one. -/
structure Scene (S : Schema) (σ : Type) where
  store : Store S
  context : Context S
  data : σ
  ambient : Option (Ambient S) := none

namespace Engine

variable {S : Schema} {σ : Type}

/-- The scene after an invocation on an entity with the given row: the
    components, the ambient state and the queue as far as the signature lets
    the entry point change them, and the private data. -/
def absorb (scene : Scene S σ) (entity : EntityId) (row : Row S) {signature : Signature}
    (outcome : Outcome S σ signature) : Scene S σ :=
  { store :=
      { scene.store with
        rows := scene.store.rows.insert entity
          (Arguments.writeRow signature outcome.arguments row) }
    context :=
      if signature.asksForContext then scene.context.enqueue outcome.enqueued else scene.context
    data := outcome.data
    ambient := Arguments.writeAmbient signature outcome.arguments scene.ambient }

/-- Runs an entry point on an entity with the given row. Without all of its
    arguments it does not run, and nothing changes. -/
def invoke (line : Plan.Line) (shape : Shape S σ) (entity : EntityId) (row : Row S)
    (scene : Scene S σ) : Run S (Scene S σ) :=
  match Arguments.bind? row scene.ambient scene.context.view shape.signature with
  | none => { state := scene, events := [.invoking line entity, .unbound line entity] }
  | some arguments =>
    let outcome := shape.invoke arguments scene.data
    let next := absorb scene entity row outcome
    let queued :=
      if Signature.asksForContext shape.signature then outcome.enqueued.map .queued else []
    let events :=
      .invoking line entity :: queued ++ [.invoked line entity outcome.verdict]
    match outcome.verdict with
    | .settled isActive =>
      { state := { next with context := next.context.settle entity isActive }, events }
    | .failed reason =>
      { state := next, events, stop := some (.failed (.systemFailed line.name reason)) }
    | .panicked message => { state := next, events, stop := some (.panicked message) }

/-- Visits an entity, or passes it by if it is inactive and that is asked. -/
def visit (line : Plan.Line) (shape : Shape S σ) (inactive : InactiveHandling)
    (entity : EntityId) (scene : Scene S σ) : Run S (Scene S σ) :=
  if inactive = .passBy ∧ scene.context.inactive.contains entity then
    { state := scene }
  else
    match scene.store.rows[entity]? with
    | none => { state := scene }
    | some row => invoke line shape entity row scene

/-- Runs a line of the plan on all entities under its key. A line that asks
    for an ambient state only runs if there is one of exactly that type. -/
def runLine (systems : List (System S σ)) (inactive : InactiveHandling) (line : Plan.Line)
    (scene : Scene S σ) : Run S (Scene S σ) :=
  if line.canMatch && line.state?.all (scene.ambient.map Sigma.fst == some ·) then
    match scene.store.bucket? line.key, systems[line.system]?.bind (·.shapes[line.shape]?) with
    | some bucket, some shape =>
      let swept := Run.forEach (visit line shape inactive) bucket.toList scene
      { swept with events := .executing line bucket.size :: swept.events }
    | _, _ => { state := scene }
  else
    { state := scene }

/-- Runs all lines of the plan. -/
def pass (systems : List (System S σ)) (plan : Plan) (inactive : InactiveHandling)
    (scene : Scene S σ) : Run S (Scene S σ) :=
  Run.forEach (runLine systems inactive) plan scene

/-- Makes a pass for each queued state, those queued meanwhile included, until
    none is left. More than `limit` passes are not made. -/
def drain (pass : Scene S σ → Run S (Scene S σ)) : Nat → Scene S σ → Run S (Scene S σ)
  | limit, scene =>
    match scene.context.dequeue? with
    | none => { state := scene }
    | some (state, context) =>
      match limit with
      | 0 => { state := scene, stop := some .unfinished }
      | limit + 1 =>
        let first := pass { scene with context, ambient := some state }
        { first with events := .passing state context.queue.length :: first.events }.andThen
          (drain pass limit)

/-- Makes the passes of an update: one with the caller's ambient state, then
    those for the queue if the strategy is recursive. Only an update that comes
    to its end counts. The ambient state left is the caller's. -/
def updateBy (pass : Scene S σ → Run S (Scene S σ)) (limit : Nat) (strategy : Strategy)
    (inactive : InactiveHandling) (scene : Scene S σ) : Run S (Scene S σ) :=
  let first := pass { scene with context := scene.context.reset }
  let rest := if strategy = .recursive then first.andThen (drain pass limit) else first
  let whole := rest.andThen fun scene =>
    { state := { scene with context := scene.context.advance } }
  { whole with
    state := { whole.state with ambient := first.state.ambient }
    events := .updating scene.context.tick strategy inactive :: whole.events }

/-- Runs an update with passes over a plan. -/
def update (systems : List (System S σ)) (plan : Plan) (limit : Nat) (strategy : Strategy)
    (inactive : InactiveHandling) (scene : Scene S σ) : Run S (Scene S σ) :=
  updateBy (pass systems plan inactive) limit strategy inactive scene

end Engine

end EntityWorld
