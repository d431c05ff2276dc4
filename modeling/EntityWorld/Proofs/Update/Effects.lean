import EntityWorld.Proofs.Update.Binding
import EntityWorld.Proofs.Update.Passes
import EntityWorld.Proofs.Update.Sides

namespace EntityWorld.Engine

variable {S : Schema} {σ : Type} {systems : List (System S σ)} {plan : Plan}
  {inactive : InactiveHandling}

/-- What the entry point of a launch leaves, told by its outcome. At the spot of each argument that
is declared as written there is what was left in the argument, and at every other spot of the row
and of the ambient state what was there before. The private data are the ones that the entry point
hands back, and what it queues waits behind what waited before. -/
structure Launch.Leaves {scene : Scene S σ} (launch : Launch systems plan inactive scene)
    (next : Scene S σ) : Prop where
  written : ∃ (spots : List Spot) (row : Row S),
    launch.shape.signature.FoundAt launch.row.types (scene.ambient.map Sigma.fst) spots ∧
    spots.Nodup ∧
    List.Forall₂ (fun spot argument =>
      spot.content? launch.row scene.ambient scene.context.view = some argument)
      spots (Arguments.toList launch.shape.signature launch.arguments) ∧
    next.store = { scene.store with rows := scene.store.rows.insert launch.entity row } ∧
    row.types = launch.row.types ∧
    ∀ spot : Spot, spot.content? row next.ambient scene.context.view =
      ((Arguments.writes launch.shape.signature launch.outcome.arguments spots).lookup spot).or
        (spot.content? launch.row scene.ambient scene.context.view)
  data : next.data = launch.outcome.data
  queue : next.context.queue = scene.context.queue ++ launch.outcome.queued
  tick : next.context.tick = scene.context.tick

variable (systems plan inactive) in
/-- What an update is made of, told by what each piece of it leaves. The turn of a line and an entry
point that lacks an argument leave everything as it was, an entry point that settles its entity
leaves what it wrote and a ruling on the entity, and the state that has waited longest becomes the
ambient one of the next pass. -/
inductive Effect : Scene S σ → List (Event S) → Scene S σ → Prop
  | turn (line : Plan.Line) (entities : Nat) (scene : Scene S σ) :
      Effect scene [.executing line entities] scene
  | skip (line : Plan.Line) (entity : EntityId) (scene : Scene S σ) :
      Effect scene [.invoking line entity, .unbound line entity] scene
  | settle {scene next : Scene S σ} (launch : Launch systems plan inactive scene) {isActive : Bool}
      (verdict : launch.outcome.verdict = .settled isActive) (leaves : launch.Leaves next)
      (sides : ∀ side, (next.context.side side).toList =
        Ruling.heed side (scene.context.side side).toList (launch.entity, isActive)) :
      Effect scene launch.events next
  | pass {scene : Scene S σ} {state : Ambient S} {queue : List (Ambient S)}
      (waits : scene.context.queue = state :: queue) :
      Effect scene [.passing state queue.length]
        { scene with context := { scene.context with queue }, ambient := some state }

/-- Parameters that ask for distinct things have distinct spots, so no write hides another and each
shows at its spot. -/
theorem Launch.leaves_after {scene : Scene S σ} (launch : Launch systems plan inactive scene)
    (hdistinct : launch.shape.signature.Distinct) : launch.Leaves launch.after where
  written := by
    obtain ⟨spots, hspots, hcontents⟩ := Arguments.exists_foundAt launch.bound
    have hnodup := hspots.nodup hdistinct
    exact ⟨spots, _, hspots, hnodup, hcontents, rfl, Arguments.types_writeRow ..,
      Arguments.content?_write hspots hnodup _ _⟩
  data := rfl
  queue := congrArg Context.queue launch.context_after
  tick := launch.tick_after

/-- A ruling touches neither components nor states, so what an entry point leaves is still there
once its verdict has been heeded. -/
theorem Launch.Leaves.settle {scene next : Scene S σ} {launch : Launch systems plan inactive scene}
    (hleaves : launch.Leaves next) (entity : EntityId) (isActive : Bool) :
    launch.Leaves { next with context := next.context.settle entity isActive } where
  written := hleaves.written
  data := hleaves.data
  queue := (queue_settle next.context entity isActive).trans hleaves.queue
  tick := (tick_settle next.context entity isActive).trans hleaves.tick

/-- The parameters of every entry point ask for distinct things. -/
def Distinct (systems : List (System S σ)) : Prop :=
  ∀ system ∈ systems, ∀ shape ∈ system.shapes, shape.signature.Distinct

/-- What a launch runs is a shape of one of the systems, and so has distinct parameters. -/
theorem Launch.distinct {scene : Scene S σ} (launch : Launch systems plan inactive scene)
    (hdistinct : Distinct systems) : launch.shape.signature.Distinct := by
  obtain ⟨system, hsystem, hshape⟩ := Option.bind_eq_some_iff.mp launch.stands
  exact hdistinct system (List.mem_of_getElem? hsystem) launch.shape (List.mem_of_getElem? hshape)

/-- Each step of an update has the effect that is told of it. The sets have to be valid for their
lists to follow the rulings. -/
theorem Step.effect (hdistinct : Distinct systems) {scene next : Scene S σ}
    {events : List (Event S)} (hscene : scene.context.Valid)
    (hstep : Step systems plan inactive scene events next) :
    Effect systems plan inactive scene events next := by
  have hheeds := hstep.heeds hscene
  cases hstep with
  | work work =>
    cases work with
    | turn line entities => exact .turn line entities scene
    | skip line entity => exact .skip line entity scene
    | settle launch verdict =>
      refine .settle launch verdict
        ((launch.leaves_after (launch.distinct hdistinct)).settle launch.entity _) fun side => ?_
      rw [hheeds.sides side, launch.rulings_events, verdict]
      rfl
  | pass waits => exact .pass waits

/-- Along a path the sets stay valid, so every step of it has the effect that is told of it. -/
theorem effects_of_path (hdistinct : Distinct systems) {first now : Scene S σ}
    {past : List (Event S)} (hfirst : first.context.Valid)
    (hpath : Path (Step systems plan inactive) first past now) :
    now.context.Valid ∧ Path (Effect systems plan inactive) first past now := by
  induction hpath with
  | refl => exact ⟨hfirst, .refl _⟩
  | step _ hstep ih =>
    obtain ⟨hmiddle, heffects⟩ := ih
    exact ⟨(hstep.heeds hmiddle).valid, .step heffects (hstep.effect hdistinct hmiddle)⟩

/-- The ambient state of the first of the passes that have led from `first` to `now`, where an
invocation then leaves `after`. As long as that pass goes on, it is the one after the invocation;
once a queued state has had a pass begun for it, it is the one that the first pass ended with. -/
inductive CallerState (R : Scene S σ → List (Event S) → Scene S σ → Prop)
    (first now after : Scene S σ) (past : List (Event S)) : Option (Ambient S) → Prop
  | running (alone : past.filterMap Event.passing? = []) :
      CallerState R first now after past after.ambient
  | ended {early later : List (Event S)} {middle : Scene S σ} {state : Ambient S} {waiting : Nat}
      (alone : early.filterMap Event.passing? = []) (path : Path R first early middle)
      (rest : Path R middle (.passing state waiting :: later) now)
      (events : past = early ++ .passing state waiting :: later) :
      CallerState R first now after past middle.ambient

/-- Told by effects the first pass leaves the same ambient state, since each piece of the path is
told by its own. -/
theorem CallerState.effects (hdistinct : Distinct systems) {first now after : Scene S σ}
    {past : List (Event S)} {ambient : Option (Ambient S)} (hfirst : first.context.Valid)
    (hcaller : CallerState (Step systems plan inactive) first now after past ambient) :
    CallerState (Effect systems plan inactive) first now after past ambient := by
  cases hcaller with
  | running alone => exact .running alone
  | ended alone path rest events =>
    obtain ⟨hmiddle, heffects⟩ := effects_of_path hdistinct hfirst path
    exact .ended alone heffects (effects_of_path hdistinct hmiddle rest).2 events

end EntityWorld.Engine
