import EntityWorld.Plan.Basic
import EntityWorld.Update.Policy

namespace EntityWorld

/-- How much a record matters, the gravest first. -/
inductive Level where
  | error
  | warn
  | info
  | debug
  | trace
deriving DecidableEq

namespace Level

def name : Level → String
  | error => "ERROR"
  | warn => "WARN"
  | info => "INFO"
  | debug => "DEBUG"
  | trace => "TRACE"

def rank : Level → Nat
  | error => 0
  | warn => 1
  | info => 2
  | debug => 3
  | trace => 4

/-- The level of a name in small letters. -/
def ofName? (name : String) : Option Level :=
  [error, warn, info, debug, trace].find? fun level => level.name.toLower = name

end Level

/-- One thing that happens in a world. What is read off it are the records for a log. -/
inductive Event (S : Schema) where
  | building (systems entities : Nat) (seed : UInt32)
  | registered (system : String) (shapes : Nat)
  | resolving
  | dependencyIgnored (system dependency : String)
  | idle (line : Plan.Line)
  | planned (number : Nat) (line : Plan.Line)
  | planReady (systems lines : Nat)
  | created (entity : EntityId)
  | placed (entity : EntityId)
  | removed (entity : EntityId)
  | setIgnored (entity : EntityId) (component : String)
  | updating (tick : Tick) (strategy : Strategy) (inactive : InactiveHandling)
  | passing (state : Ambient S) (remaining : Nat)
  | executing (line : Plan.Line) (entities : Nat)
  | invoking (line : Plan.Line) (entity : EntityId)
  | unbound (line : Plan.Line) (entity : EntityId)
  | queued (state : Ambient S)
  | invoked (line : Plan.Line) (entity : EntityId) (verdict : Verdict)
  | noted (text : String)

namespace Event

variable {S : Schema}

/-- The record of an event, if it leaves one. An invocation that settles its
    entity shows in the context and leaves none. -/
def record? : Event S → Option (Level × String)
  | building systems entities seed =>
    some (.debug,
      s!"Building ECS with {systems} Systems and {entities} Entities (seed {seed})")
  | registered system shapes => some (.debug, s!"Registered System {system} with {shapes} Shapes")
  | resolving => some (.debug, "Resolving System Dependencies")
  | dependencyIgnored system dependency =>
    some (.warn, s!"System {system} depends on unregistered system {dependency}, ignoring")
  | idle line =>
    some (.warn,
      s!"Shape {line.shape} of System {line.name} has no component parameters and will never run")
  | planned number line =>
    some (.trace, s!"Plan line {number} {line.name}#{line.shape} {line.key.text}")
  | planReady systems lines =>
    some (.debug, s!"Scheduler initialized with {systems} Systems and {lines} Plan Lines")
  | created entity => some (.trace, s!"Created Entity {entity}")
  | placed entity => some (.trace, s!"Placed Entity {entity}")
  | removed entity => some (.trace, s!"Removed Entity {entity}")
  | setIgnored entity component =>
    some (.trace, s!"Entity {entity} has no {component}, ignoring set")
  | updating tick strategy inactive =>
    some (.trace, s!"Update {tick.text} ({strategy.text}, {inactive.text})")
  | passing _ remaining => some (.trace, s!"Executing queued pass, {remaining} remaining")
  | executing line entities =>
    some (.trace, s!"Executing {line.name} Shape {line.shape} on {entities} Entities")
  | invoking line _ => some (.trace, s!"Executing System {line.name} Shape {line.shape}")
  | unbound _ entity => some (.trace, s!"Skipping Entity {entity}, parameters not bindable")
  | queued state => some (.trace, s!"Queueing State {state.1.name}")
  | invoked line entity verdict =>
    match verdict with
    | .settled _ => none
    | .failed reason =>
      some (.error, s!"System {line.name} failed on Entity {entity}: {reason}")
    | .panicked _ => some (.error, s!"System {line.name} panicked on Entity {entity}")
  | noted text => some (.info, text)

/-- The records of some events that matter at least as much as a level. -/
def records (events : List (Event S)) (level : Level) : List String :=
  events.filterMap fun event =>
    event.record?.bind fun (own, text) =>
      if own.rank ≤ level.rank then some (own.name ++ " " ++ text) else none

end Event

end EntityWorld
