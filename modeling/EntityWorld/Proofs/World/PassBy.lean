import EntityWorld.Proofs.Update.PassBy
import EntityWorld.Proofs.World.Activity

namespace EntityWorld

variable {S : Schema} {σ : Type}

namespace World

/-- One update of a world as a step, whatever its ambient state and strategy are and however it
ends. -/
inductive Updated (inactive : InactiveHandling) :
    World S σ → List (Event S) → World S σ → Prop
  | mk (world : World S σ) (limit : Nat) (ambient : Option (Ambient S)) (strategy : Strategy) :
      Updated inactive world (world.updateWith limit ambient strategy inactive).events
        (world.updateWith limit ambient strategy inactive).state.1

/-- The scene of a world between its updates. -/
def scene (world : World S σ) : Scene S σ where
  store := world.store
  context := world.context
  data := world.data

/-- An update of a world that passes inactive entities by spares them, with its beginning and its
end. -/
theorem spares_updateWith (world : World S σ) (limit : Nat) (ambient : Option (Ambient S))
    (strategy : Strategy) :
    world.scene.Spares (world.updateWith limit ambient strategy .passBy).events
      (world.updateWith limit ambient strategy .passBy).state.1.scene := by
  let first : Scene S σ := { world.scene with ambient }
  let run := Engine.update world.systems world.plan limit strategy .passBy first
  have hbegin : world.scene.Spares [] first := .of_idle rfl rfl rfl
  have hupdate : first.Spares run.events run.state :=
    Engine.spares_update world.systems world.plan limit strategy first
  have hend : run.state.Spares []
      (world.updateWith limit ambient strategy .passBy).state.1.scene := .of_idle rfl rfl rfl
  have hwhole := (hbegin.trans hupdate).trans hend
  rw [List.append_nil] at hwhole
  exact hwhole

/-- What one update leaves alone, any number of them does, whatever happens in each of them. -/
theorem spares_of_path {world last : World S σ} {events : List (Event S)}
    (hpath : Path (Updated .passBy) world events last) :
    world.scene.Spares events last.scene := by
  refine hpath.related (Q := fun world events last => world.scene.Spares events last.scene)
    (fun _ => .of_idle rfl rfl rfl) Scene.Spares.trans fun hstep => ?_
  cases hstep with
  | mk limit ambient strategy => exact spares_updateWith _ limit ambient strategy

end World

/-- An entity that is inactive is not run on by any number of updates that pass inactive entities
by. It keeps its components and stays inactive. Within one such update an entity is found active any
number of times and then inactive at most once, and once it is, neither a later line nor a later
pass runs on it. -/
theorem inactive_of_passBy (world : World S σ) :
    (∀ (events : List (Event S)) (last : World S σ),
      Path (World.Updated .passBy) world events last →
      ∀ entity, world.context.inactive.contains entity = true →
        (∀ call ∈ events.filterMap Event.invocation?, call.2.1 ≠ entity) ∧
        last.store.rows[entity]? = world.store.rows[entity]? ∧
        last.context.inactive.contains entity = true) ∧
    ∀ (limit : Nat) (ambient : Option (Ambient S)) (strategy : Strategy) (entity : EntityId),
      let run := world.updateWith limit ambient strategy .passBy
      (∃ count, Ruling.verdictsOn run.rulings entity = List.replicate count true ∨
        Ruling.verdictsOn run.rulings entity = List.replicate count true ++ [false]) ∧
      ∀ (past : List Invocation) (line : Plan.Line) (future : List Invocation),
        run.invocations = past ++ (line, entity, .settled false) :: future →
        ∀ call ∈ future, call.2.1 ≠ entity := by
  refine ⟨fun events last hpath entity hentity => ?_, fun limit ambient strategy entity => ?_⟩
  · exact (World.spares_of_path hpath).spared entity hentity
  · intro run
    have hsilent : run.invocations.Pairwise fun call later =>
        call.2.2 = .settled false → later.2.1 ≠ call.2.1 :=
      (world.spares_updateWith limit ambient strategy).silent
    refine ⟨Ruling.exists_verdictsOn_eq (Run.pairwise_rulings hsilent) entity, ?_⟩
    intro past line future hsplit call hcall
    rw [hsplit, List.pairwise_append, List.pairwise_cons] at hsilent
    exact hsilent.2.1.1 call hcall rfl

/-- A system with one entry point, which reads one component and finds every entity inactive. -/
def Zoo.dismisser : System Zoo.schema Unit where
  id := Zoo.system 0
  shapes :=
    [{ signature := [.component Zoo.plain.type .read]
       invoke := fun arguments data => { arguments, data, verdict := .settled false } }]

/-- In its world the one entity is inactive after the first update, and two more that pass inactive
entities by run on nothing. -/
theorem inactive_of_passBy_dismisser :
    let world : World Zoo.schema Unit := { Zoo.readerWorld with systems := [Zoo.dismisser] }
    let first := world.updateWith 0 none .single .visit
    let second := first.state.1.updateWith 0 none .recursive .passBy
    let third := second.state.1.updateWith 3 none .single .passBy
    first.invocations.map (·.2.1) = [0] ∧ first.state.1.context.inactive.contains 0 = true ∧
      (∀ call ∈ (second.events ++ third.events).filterMap Event.invocation?, call.2.1 ≠ 0) ∧
      third.state.1.context.inactive.contains 0 = true := by
  intro world first second third
  have hinactive : first.state.1.context.inactive.contains 0 = true := by decide +kernel
  have hpath : Path (World.Updated .passBy) first.state.1 (second.events ++ third.events)
      third.state.1 :=
    .step (.single (.mk first.state.1 0 none .recursive)) (.mk second.state.1 3 none .single)
  obtain ⟨hcalls, _, hlast⟩ := (inactive_of_passBy first.state.1).1 _ _ hpath 0 hinactive
  exact ⟨by decide +kernel, hinactive, hcalls, hlast⟩

end EntityWorld
