import EntityWorld.Proofs.Update.Frame
import EntityWorld.Proofs.World.Call

namespace EntityWorld

variable {S : Schema} {σ : Type}

namespace Builder

theorem stateOf_create (builder : Builder S σ) (components : List (Component S)) :
    stateOf (builder.create components) =
      { builder with store := stateOf (builder.store.create components) } := by
  unfold create
  cases builder.store.create components <;> rfl

/-- Only an acceptable system is added, and then nothing else changes. It comes behind those that
were added before. -/
theorem stateOf_addSystem (builder : Builder S σ) (system : System S σ) :
    stateOf (builder.addSystem system) = builder ∨
      system.check = .ok () ∧ stateOf (builder.addSystem system) =
        { builder with systems := builder.systems ++ [system] } := by
  unfold addSystem
  split
  · exact .inl rfl
  · split
    case h_1 => exact .inl rfl
    case h_2 hchecked => exact .inr ⟨hchecked, rfl⟩

/-- A call changes the store of a builder as the call on the store does that it comes down to. One
that comes down to none leaves the store alone. -/
theorem Call.store_run (call : Builder.Call S σ) (builder : Builder S σ) :
    (call.run builder).store =
      call.onStore?.elim builder.store fun onStore => onStore.run builder.store := by
  cases call with
  | addSystem system =>
    rcases builder.stateOf_addSystem system with hsame | ⟨_, hadded⟩
    · exact congrArg store hsame
    · exact (congrArg store hadded :)
  | create components => exact congrArg store (builder.stateOf_create components)
  | createInitial types =>
    exact congrArg store (builder.stateOf_create (types.map Component.initial))
  | seed value => rfl
  | configure config => rfl
  | register type => rfl

/-- A finished world has what its builder had, a plan, and an empty context. The plan is made under
the configured seed. -/
theorem build_eq_ok {builder : Builder S σ} {world : World S σ} (hbuild : builder.build = .ok world) :
    ∃ plan, Plan.build builder.systems builder.config.seed = .ok plan ∧
      world =
        { systems := builder.systems
          plan
          store := builder.store
          config := builder.config
          data := builder.data } := by
  unfold build at hbuild
  cases hplan : Plan.build builder.systems builder.config.seed with
  | error error => simp [hplan, Except.map] at hbuild
  | ok plan =>
    rw [hplan] at hbuild
    exact ⟨plan, rfl, (Except.ok.inj hbuild).symm⟩

/-- What every call on a builder keeps: its store is sound and its lists exact, they are made under
the configured seed, and its systems are acceptable. -/
structure Consistent (builder : Builder S σ) (order : List EntityId) : Prop where
  sound : builder.store.Sound
  indexed : builder.store.Indexed order
  seed : builder.store.seed = builder.config.seed
  checked : ∀ system ∈ builder.systems, system.check = .ok ()

/-- A call that changes the configured seed changes that of the store with it. -/
theorem Consistent.seed_run {builder : Builder S σ} {order : List EntityId}
    (hbuilder : builder.Consistent order) (call : Builder.Call S σ) :
    (call.run builder).store.seed = (call.run builder).config.seed := by
  have hreseed (value : UInt32) : (builder.store.reseed value).seed = value := by
    obtain ⟨buckets, heq⟩ := builder.store.reseed_eq value
    rw [heq]
  have hcreate (components : List (Component S)) :
      (stateOf (builder.create components)).store.seed =
        (stateOf (builder.create components)).config.seed := by
    rw [builder.stateOf_create]
    exact (hbuilder.sound.seed_run (.create components) (by simp)).trans hbuilder.seed
  cases call with
  | seed value => exact hreseed value
  | configure config => exact hreseed config.seed
  | addSystem system =>
    change (stateOf (builder.addSystem system)).store.seed =
      (stateOf (builder.addSystem system)).config.seed
    rcases builder.stateOf_addSystem system with hsame | ⟨_, hadded⟩
    · rw [hsame]
      exact hbuilder.seed
    · rw [hadded]
      exact hbuilder.seed
  | create components => exact hcreate components
  | createInitial types => exact hcreate (types.map Component.initial)
  | register type => exact hbuilder.seed

theorem Consistent.checked_run {builder : Builder S σ} {order : List EntityId}
    (hbuilder : builder.Consistent order) (call : Builder.Call S σ) :
    ∀ system ∈ (call.run builder).systems, system.check = .ok () := by
  cases call with
  | addSystem system =>
    change ∀ other ∈ (stateOf (builder.addSystem system)).systems, other.check = .ok ()
    rcases builder.stateOf_addSystem system with hsame | ⟨hchecked, hadded⟩
    · rw [hsame]
      exact hbuilder.checked
    · rw [hadded]
      intro other hother
      rcases List.mem_append.mp hother with hbefore | hnew
      · exact hbuilder.checked other hbefore
      · exact List.mem_singleton.mp hnew ▸ hchecked
  | create components =>
    exact congrArg systems (builder.stateOf_create components) ▸ hbuilder.checked
  | createInitial types =>
    exact congrArg systems (builder.stateOf_create (types.map Component.initial)) ▸ hbuilder.checked
  | seed value => exact hbuilder.checked
  | configure config => exact hbuilder.checked
  | register type => exact hbuilder.checked

/-- Every call on a builder keeps it consistent, whether or not it succeeds. -/
theorem Consistent.run {builder : Builder S σ} {order : List EntityId}
    (hbuilder : builder.Consistent order) (call : Builder.Call S σ) :
    (call.run builder).Consistent
      (call.onStore?.elim order fun onStore => onStore.reorder builder.store order) where
  sound := by
    rw [call.store_run]
    cases call.onStore? with
    | none => exact hbuilder.sound
    | some onStore => exact hbuilder.sound.run onStore
  indexed := by
    rw [call.store_run]
    cases call.onStore? with
    | none => exact hbuilder.indexed
    | some onStore => exact hbuilder.indexed.run hbuilder.sound onStore
  seed := hbuilder.seed_run call
  checked := hbuilder.checked_run call

theorem Reached.consistent {builder : Builder S σ} {order : List EntityId}
    (hreached : builder.Reached order) : builder.Consistent order := by
  induction hreached with
  | start data => exact ⟨.empty 0, .empty 0, rfl, by simp⟩
  | call call _ ih => exact ih.run call

end Builder

namespace World

/-- The context that a call leaves, given the store before it. Only removing an entity that lives
touches the context. -/
def Call.onContext (store : Store S) (context : Context S) : World.Call S → Context S
  | remove entity =>
    match store.remove entity with
    | .ok _ _ => context.forget entity
    | .error _ _ => context
  | _ => context

/-- A call changes the store of a world as the call on the store does that it comes down to, and
beyond that at most the context. -/
theorem Call.run_eq (call : World.Call S) (world : World S σ) :
    call.run world =
      { world with
        store := call.onStore.run world.store
        context := call.onContext world.store world.context } := by
  have hwith {α : Type} (result : Store.Result S α) :
      stateOf (world.withStore result) = { world with store := stateOf result } := by
    cases result <;> rfl
  cases call with
  | create components => exact hwith (world.store.create components)
  | createInitial types => exact hwith (world.store.create (types.map Component.initial))
  | remove entity =>
    change stateOf (world.remove entity) =
      { world with
        store := stateOf (world.store.remove entity)
        context := onContext world.store world.context (.remove entity) }
    simp only [World.remove, onContext]
    cases world.store.remove entity <;> rfl
  | set entity component => exact hwith (world.store.set entity component)
  | modify entity type change => exact hwith (world.store.modify entity type change)
  | setField entity type field value => exact hwith (world.store.setField entity type field value)
  | register type => rfl
  | restore snapshot => exact hwith (world.store.restore snapshot)

/-- What every call on a world and every update keeps: its store is sound and its lists exact, its
systems are acceptable, and its plan is the one for these systems under the seed of the store. -/
structure Consistent (world : World S σ) (order : List EntityId) : Prop where
  sound : world.store.Sound
  indexed : world.store.Indexed order
  plan : Plan.build world.systems world.store.seed = .ok world.plan
  checked : ∀ system ∈ world.systems, system.check = .ok ()

/-- A world is consistent when it is finished, since its plan is made under the seed of its
store. -/
theorem Consistent.of_build {builder : Builder S σ} {order : List EntityId} {world : World S σ}
    (hbuilder : builder.Consistent order) (hbuild : builder.build = .ok world) :
    world.Consistent order := by
  obtain ⟨plan, hplan, rfl⟩ := Builder.build_eq_ok hbuild
  exact ⟨hbuilder.sound, hbuilder.indexed, hbuilder.seed ▸ hplan, hbuilder.checked⟩

/-- Every call on a world keeps it consistent. None of them changes the seed or the systems, so the
plan still fits. -/
theorem Consistent.run {world : World S σ} {order : List EntityId}
    (hworld : world.Consistent order) (call : World.Call S) :
    (call.run world).Consistent (call.onStore.reorder world.store order) := by
  rw [call.run_eq]
  have hseed := hworld.sound.seed_run call.onStore (by cases call <;> simp [Call.onStore])
  exact ⟨hworld.sound.run _, hworld.indexed.run hworld.sound _, hseed.symm ▸ hworld.plan,
    hworld.checked⟩

theorem Consistent.update {world : World S σ} {order : List EntityId}
    (hworld : world.Consistent order) (limit : Nat) (ambient : Option (Ambient S))
    (strategy : Strategy) (inactive : InactiveHandling) :
    (world.updateWith limit ambient strategy inactive).state.1.Consistent order := by
  have hsame := Engine.sameLayout_update world.systems world.plan limit strategy inactive
    { store := world.store, context := world.context, data := world.data, ambient }
  exact ⟨hworld.sound.of_sameLayout hsame, hworld.indexed.of_sameLayout hsame,
    hsame.seed.symm ▸ hworld.plan, hworld.checked⟩

/-- Worlds that calls and updates lead to are consistent. This is where properties of all running
worlds start from. -/
theorem Reached.consistent {world : World S σ} {order : List EntityId}
    (hreached : world.Reached order) : world.Consistent order := by
  induction hreached with
  | built before build => exact .of_build before.consistent build
  | call call _ ih => exact ih.run call
  | update limit ambient strategy inactive _ ih => exact ih.update limit ambient strategy inactive

end World

/-- A system with one entry point, which reads one component. -/
def Zoo.reader : System Zoo.schema Unit where
  id := Zoo.system 0
  shapes :=
    [{ signature := [.component Zoo.plain.type .read]
       invoke := fun arguments data => { arguments, data, verdict := .settled true } }]

/-- A world in which one entity has the component that the system reads. -/
def Zoo.readerWorld : World Zoo.schema Unit where
  systems := [reader]
  plan := Plan.linesOf reader 0 0
  store := (Store.Call.create [plain]).run {}
  config := {}
  data := ()

theorem Zoo.reached_readerWorld : Zoo.readerWorld.Reached [0] :=
  .built (.call (.create [Zoo.plain]) (.call (.addSystem Zoo.reader) (.start ()))) rfl

end EntityWorld
