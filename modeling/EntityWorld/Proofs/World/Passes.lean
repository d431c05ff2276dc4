import EntityWorld.Proofs.Update.Passes
import EntityWorld.World.Basic

namespace EntityWorld

variable {S : Schema} {σ : Type}

namespace World

variable (world : World S σ)

/-- The scene at which the first pass of an update begins: nobody is active, no state waits, and the
ambient state is the caller's. -/
def start (ambient : Option (Ambient S)) : Scene S σ where
  store := world.store
  context := world.context.reset
  data := world.data
  ambient := ambient

/-- The passes of an update. -/
def passes (limit : Nat) (ambient : Option (Ambient S)) (strategy : Strategy)
    (inactive : InactiveHandling) : Run S (Scene S σ) :=
  Engine.passes (Engine.pass world.systems world.plan inactive) limit strategy
    (world.start ambient)

/-- An update begins with an event of its own, makes its passes and concludes them. -/
theorem updateWith_eq (limit : Nat) (ambient : Option (Ambient S)) (strategy : Strategy)
    (inactive : InactiveHandling) :
    let whole := world.passes limit ambient strategy inactive
    let first := Engine.pass world.systems world.plan inactive (world.start ambient)
    let last := Engine.conclude whole first.state.ambient
    world.updateWith limit ambient strategy inactive =
      { state :=
          ({ world with store := last.store, context := last.context, data := last.data },
            last.ambient)
        events := .updating world.context.tick strategy inactive :: whole.events
        stop := whole.stop } := by
  intro whole first last
  rw [updateWith, Engine.update, Engine.updateBy_eq]
  rfl

/-- A greater limit makes no difference to an update that did not reach the limit. So the limit only
cuts updates off and never steers them. -/
theorem updateWith_of_le {limit more : Nat} (hle : limit ≤ more) (ambient : Option (Ambient S))
    (strategy : Strategy) (inactive : InactiveHandling)
    (hstop : (world.updateWith limit ambient strategy inactive).stop ≠ some .unfinished) :
    world.updateWith more ambient strategy inactive =
      world.updateWith limit ambient strategy inactive := by
  rw [updateWith_eq] at hstop
  have hpasses : world.passes more ambient strategy inactive =
      world.passes limit ambient strategy inactive := Engine.passes_of_le hle hstop
  rw [updateWith_eq, updateWith_eq, hpasses]

/-- The passes that an update makes: one with the caller's state, and `later` ones, told by the
scenes at which they begin. -/
structure Makes (limit : Nat) (ambient : Option (Ambient S)) (strategy : Strategy)
    (inactive : InactiveHandling) (later : List (Scene S σ)) : Prop where
  /-- Each pass but the last comes to its end, and the state that then waits longest is ambient in
  the next. -/
  succeeds : (world.start ambient :: later).IsChain
    (Engine.Succeeds (Engine.pass world.systems world.plan inactive))
  /-- Nothing happens but in these passes. -/
  events : (world.updateWith limit ambient strategy inactive).events =
    .updating world.context.tick strategy inactive ::
      ((Engine.pass world.systems world.plan inactive (world.start ambient)).events ++
        Engine.eventsOf (Engine.pass world.systems world.plan inactive) later)
  /-- The later passes are for states that the update queues, in the order of queueing. -/
  states :
    let queued := (world.updateWith limit ambient strategy inactive).events.filterMap Event.queued?
    later.length ≤ queued.length ∧ later.map Scene.ambient = (queued.take later.length).map some
  /-- The other states that the update queues still wait, and no state from before does. -/
  waits :
    let queued := (world.updateWith limit ambient strategy inactive).events.filterMap Event.queued?
    (world.updateWith limit ambient strategy inactive).state.1.context.queue =
      queued.drop later.length
  single : strategy = .single → later = []
  /-- A recursive update that comes to its end has made a pass for every state. -/
  recursive : strategy = .recursive →
    (world.updateWith limit ambient strategy inactive).stop = none →
    later.length =
      ((world.updateWith limit ambient strategy inactive).events.filterMap Event.queued?).length
  /-- A pass that stops is the last, and it stops the update. -/
  stops : ∀ (number : Nat) (start : Scene S σ) (stop : Stop),
    (world.start ambient :: later)[number]? = some start →
    (Engine.pass world.systems world.plan inactive start).stop = some stop →
    later.length = number ∧ (world.updateWith limit ambient strategy inactive).stop = some stop
  /-- Nothing else stops an update, unless states wait when all passes within the limit are made. -/
  stopped : ∀ stop, (world.updateWith limit ambient strategy inactive).stop = some stop →
    (Engine.pass world.systems world.plan inactive (later.getLastD (world.start ambient))).stop =
      some stop ∨
    stop = .unfinished ∧ strategy = .recursive ∧ later.length = limit ∧
      limit <
        ((world.updateWith limit ambient strategy inactive).events.filterMap Event.queued?).length

/-- Every update makes some passes in this way. They are those of the sequence of its engine, and
the states are told by what waits at every moment. -/
theorem exists_makes (limit : Nat) (ambient : Option (Ambient S)) (strategy : Strategy)
    (inactive : InactiveHandling) :
    ∃ later, world.Makes limit ambient strategy inactive later := by
  let whole := world.passes limit ambient strategy inactive
  let first := world.start ambient
  obtain ⟨later, hlater⟩ := Engine.exists_sequence
    (Engine.pass world.systems world.plan inactive) limit strategy first
  have hqueues : first.Queues whole.events whole.state :=
    (Engine.traced_passes world.systems world.plan inactive limit strategy first).related
      Scene.Queues.refl Scene.Queues.trans Engine.Step.queues Engine.Halt.queues
  obtain ⟨hle, hstates, hwaits⟩ := hlater.queued Engine.passing_pass hqueues rfl
  refine ⟨later, hlater.succeeds, ?_, ?_, ?_, hlater.single, ?_, ?_, ?_⟩ <;>
    rw [updateWith_eq]
  · exact congrArg _ hlater.events
  · exact ⟨hle, hstates⟩
  · exact hwaits
  · intro hrecursive hstop
    have hqueue : whole.state.context.queue = [] := by
      rcases hlater.stop with ⟨_, hempty⟩ | ⟨hunfinished, _⟩
      · exact hempty hstop hrecursive
      · cases hstop.symm.trans hunfinished
    have hall := List.drop_eq_nil_iff.mp (hwaits.symm.trans hqueue)
    exact Nat.le_antisymm hle hall
  · intro number start stop hstart hstop
    obtain ⟨hlength, hlast⟩ := Engine.length_eq_of_stop hlater.succeeds hstart hstop
    rw [← hlast] at hstop
    refine ⟨hlength, ?_⟩
    rcases hlater.stop with ⟨hwhole, _⟩ | ⟨_, hnone, _⟩
    · exact hwhole.trans hstop
    · cases hnone.symm.trans hstop
  · intro stop hstop
    rcases hlater.stop with ⟨hwhole, _⟩ | ⟨hunfinished, _, hrecursive, hlength, hqueue⟩
    · exact .inl (hwhole.symm.trans hstop)
    · have hmore := mt List.drop_eq_nil_iff.mpr (hwaits ▸ hqueue)
      rw [hlength, Nat.not_le] at hmore
      exact .inr ⟨Option.some.inj (hstop.symm.trans hunfinished), hrecursive, hlength, hmore⟩

/-- A completed update is counted, over from the start after the last number, and no other is. The
count has 64 bits. -/
theorem tick_updateWith (limit : Nat) (ambient : Option (Ambient S)) (strategy : Strategy)
    (inactive : InactiveHandling) :
    let run := world.updateWith limit ambient strategy inactive
    (run.stop = none →
      run.state.1.context.tick.count.toNat = (world.context.tick.count.toNat + 1) % UInt64.size) ∧
    (run.stop ≠ none → run.state.1.context.tick = world.context.tick) := by
  have htick : (world.passes limit ambient strategy inactive).state.context.tick =
      world.context.tick := Engine.tick_passes limit strategy (world.start ambient)
  rw [updateWith_eq]
  simp only [Engine.conclude, htick]
  constructor
  · intro hstop
    rw [hstop]
    exact UInt64.toNat_add _ _
  · intro hstop
    rw [if_neg (mt Option.isNone_iff_eq_none.mp hstop)]

end World

/-- An update makes a first pass with the caller's state, if there is one, and after it, if the
strategy is recursive, passes for the states that it queues, one each and in the order of queueing,
as far as it comes. At every moment the states queued since its beginning are those that a pass was
begun for and those that wait. Only an update that comes to its end is counted. -/
theorem passes_of_update (world : World S σ) (limit : Nat) (ambient : Option (Ambient S))
    (strategy : Strategy) (inactive : InactiveHandling) :
    let run := world.updateWith limit ambient strategy inactive
    let whole := world.passes limit ambient strategy inactive
    let first := world.start ambient
    (∃ later, world.Makes limit ambient strategy inactive later) ∧
    (run.events = .updating world.context.tick strategy inactive :: whole.events ∧
      whole.Traced (Engine.Step world.systems world.plan inactive)
        (Engine.Halt world.systems world.plan inactive) first ∧
      ∀ (past : List (Event S)) (now : Scene S σ),
        Path (Engine.Step world.systems world.plan inactive) first past now →
        past.filterMap Event.queued? =
          past.filterMap Event.passing? ++ now.context.queue) ∧
    (run.stop = none →
      run.state.1.context.tick.count.toNat = (world.context.tick.count.toNat + 1) % UInt64.size) ∧
    (run.stop ≠ none → run.state.1.context.tick = world.context.tick) := by
  intro run whole first
  refine ⟨world.exists_makes limit ambient strategy inactive, ⟨?_, ?_, ?_⟩,
    world.tick_updateWith limit ambient strategy inactive⟩
  · exact congrArg Run.events (world.updateWith_eq limit ambient strategy inactive)
  · exact Engine.traced_passes world.systems world.plan inactive limit strategy first
  · intro past now hpath
    exact hpath.related Scene.Queues.refl Scene.Queues.trans Engine.Step.queues

end EntityWorld
