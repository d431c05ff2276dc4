import EntityWorld.Journal.Operations

namespace EntityWorld.Demo

def position : TypeId := { name := "zoo::demo::Position", variant := 0 }

def velocity : TypeId := { name := "zoo::demo::Velocity", variant := 1 }

def fuel : TypeId := { name := "zoo::demo::Fuel", variant := 2 }

def gravity : TypeId := { name := "zoo::demo::Gravity" }

def fuelType : IntegerType := { signed := false, width := .bits32 }

/-- The variant tells the component types apart. -/
def fields (type : TypeId) : List Field :=
  match type.variant with
  | 0 => [{ name := "x", type := .single }, { name := "y", type := .single }]
  | 1 => [{ name := "x", type := .single }, { name := "y", type := .single }]
  | 2 => [{ name := "0", type := .integer fuelType }]
  | _ => []

theorem distinct_fields (type : TypeId) : ((fields type).map Field.name).Nodup := by
  unfold fields
  split <;> decide

/-- The ambient state is the strength of gravity. -/
abbrev schema : Schema where
  fields
  distinct := distinct_fields
  State _ := Float32

/-- Burns a unit of fuel for speed. Without fuel nothing happens, and the entity becomes inactive
    for thrust, though movement, which comes after it, keeps it active. -/
def burn : Shape schema Unit where
  signature := [.component fuel .write, .component velocity .write]
  invoke := fun ((units, ()), (x, (y : Float32), ()), ()) data =>
    if h : 0 < units.1 then
      let units : fuelType.Range := ⟨units.1 - 1, by
        have hbounds := units.2
        simp only [IntegerType.least, IntegerType.greatest, fuelType] at hbounds ⊢
        exact ⟨Int.le_sub_one_of_lt h, Int.le_trans (Int.sub_le_self _ Int.one_nonneg) hbounds.2⟩⟩
      { arguments := ((units, ()), (x, y + 1.5, ()), ()), data, verdict := .settled true }
    else
      { arguments := ((units, ()), (x, y, ()), ()), data, verdict := .settled false }

/-- Moves an entity by its velocity. -/
def step : Shape schema Unit where
  signature := [.component position .write, .component velocity .read]
  invoke := fun
    (((x : Float32), (y : Float32), ()), ((dx : Float32), (dy : Float32), ()), ()) data =>
    { arguments := ((x + dx, y + dy, ()), (dx, dy, ()), ()), data, verdict := .settled true }

/-- Pulls an entity down. -/
def fall : Shape schema Unit where
  signature := [.state gravity .read, .component velocity .write]
  invoke := fun ((pull : Float32), ((x : Float32), (y : Float32), ()), ()) data =>
    { arguments := (pull, (x, y - pull, ()), ()), data, verdict := .settled true }

def thrust : System schema Unit where
  id := { name := "zoo::demo::Thrust" }
  shapes := [burn]

def movement : System schema Unit where
  id := { name := "zoo::demo::Movement" }
  after := [thrust.id]
  shapes := [step, fall]

def positionOf (x y : Float32) : Component schema :=
  ⟨position, (x, y, ())⟩

def velocityOf (x y : Float32) : Component schema :=
  ⟨velocity, (x, y, ())⟩

/-- What happens during the demonstration, and the error that would end it. -/
abbrev DemoM := StateT (List (Event schema)) (Except Error)

def report (events : List (Event schema)) : DemoM Unit :=
  modify (· ++ events)

/-- Takes the answer of an operation, and reports its events. -/
def perform {τ α : Type} (result : EStateM.Result Error τ α) (events : List (Event schema)) :
    DemoM (α × τ) := do
  report events
  match result with
  | .ok answer state => return (answer, state)
  | .error error _ => throw error

/-- Where an entity is, for readers. -/
def positionText (world : World schema Unit) (entity : EntityId) : Except Error String :=
  (world.store.get entity position).map fun ((x : Float32), (y : Float32), ()) =>
    let outline (x : Float32) : Text.Outline := .plain (Value.exactNumber.text (.ofFloat32 x))
    (Text.Outline.labelled "Position" [("x", outline x), ("y", outline y)]).inline

/-- Entries of a map between braces. -/
def mapText (entries : List (String × String)) : String :=
  "\x7b" ++ ", ".intercalate (entries.map fun (key, entry) => key ++ ": " ++ entry) ++ "\x7d"

def snapshotText (snapshot : Snapshot) : String :=
  mapText <| snapshot.toList.map fun (entity, components) =>
    (toString entity.toNat, mapText <| components.toList.map fun (name, fields) =>
      (Text.quoted name, mapText <| fields.toList.map fun (field, value) =>
        (Text.quoted field, value.outline.inline)))

/-- Runs updates under a gravity of one, and reports after each where the
    rocket and the rock are. -/
def fly (rocket rock : EntityId) : Nat → World schema Unit → DemoM (World schema Unit)
  | 0, world => pure world
  | updates + 1, world => do
    let run := world.update 0 (some ⟨gravity, 1⟩)
    report run.events
    match run.stop with
    | some (.failed error) => throw error
    | _ =>
      let world := run.state.1
      let first ← positionText world rocket
      let second ← positionText world rock
      let active := world.context.active.size
      let inactive := world.context.inactive.size
      report [.noted (s!"Tick {world.context.tick.text}: rocket {first} rock {second} " ++
        s!"active {active} inactive {inactive}")]
      fly rocket rock updates world

/-- The demonstration from beginning to end. -/
def demonstrate : DemoM Unit := do
  let builder : Builder schema Unit := Builder.configure { data := () } { seed := 7 }
  let added := builder.addSystem movement
  let (_, builder) ← perform added (Journal.ofAddSystem movement added)
  let added := builder.addSystem thrust
  let (_, builder) ← perform added (Journal.ofAddSystem thrust added)
  let units : fuelType.Range := ⟨3, by decide⟩
  let created := builder.create [positionOf 0 0, velocityOf 0.5 0, ⟨fuel, (units, ())⟩]
  let (rocket, builder) ← perform created (Journal.ofCreate created)
  let created := builder.create [positionOf 10 5, velocityOf 0 0]
  let (rock, builder) ← perform created (Journal.ofCreate created)
  report (Journal.ofBuild builder)
  let world ← builder.build
  let order := ", ".intercalate (world.order.map Text.quoted)
  report [.noted s!"Execution order: [{order}]"]
  let world ← fly rocket rock 5 world
  let snapshot := world.store.snapshot
  report [.noted s!"Snapshot: {snapshotText snapshot}"]
  let restored := world.restore snapshot
  let _ ← perform restored (Journal.ofRestore snapshot restored)

/-- The events of the demonstration, or the error that ends it. -/
def events : Except Error (List (Event schema)) :=
  (demonstrate.run []).map Prod.snd

end EntityWorld.Demo
