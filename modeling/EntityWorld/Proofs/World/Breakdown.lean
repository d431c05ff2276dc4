import EntityWorld.Proofs.Store.Deeds
import EntityWorld.Proofs.Update.Effects
import EntityWorld.Proofs.Update.Pardon
import EntityWorld.Proofs.World.Activity
import EntityWorld.Proofs.World.Passes

namespace EntityWorld

variable {S : Schema} {σ : Type}

namespace Engine

variable {systems : List (System S σ)} {plan : Plan} {inactive : InactiveHandling}

/-- Every invocation of a step settles its entity, for one that does not is no step but ends the
update. -/
theorem Step.settled {scene next : Scene S σ} {events : List (Event S)}
    (hstep : Step systems plan inactive scene events next) :
    ∀ call ∈ events.filterMap Event.invocation?, ∃ isActive, call.2.2 = .settled isActive := by
  cases hstep with
  | work work =>
    cases work with
    | turn line entities => simp [Event.invocation?]
    | skip line entity => simp [Event.invocation?]
    | settle launch verdict =>
      rw [launch.filterMap_events Event.invocation? rfl]
      simp [Event.invocation?, verdict]
  | pass waits => simp [Event.invocation?]

/-- Until something stops an update, every invocation settles its entity. The induction is along the
path. -/
theorem settled_of_path {first now : Scene S σ} {past : List (Event S)}
    (hpath : Path (Step systems plan inactive) first past now) :
    ∀ call ∈ past.filterMap Event.invocation?, ∃ isActive, call.2.2 = .settled isActive := by
  induction hpath with
  | refl => simp
  | step _ hstep ih =>
    intro call hcall
    rw [List.filterMap_append] at hcall
    rcases List.mem_append.mp hcall with hmem | hmem
    · exact ih call hmem
    · exact hstep.settled call hmem

/-- What stops the passes of an update, short of the limit, is an invocation. It is the last thing
that happens, and what it has written stays. -/
theorem exists_launch_of_stop {first : Scene S σ} {run : Run S (Scene S σ)} {stop : Stop}
    (hrun : run.Traced (Step systems plan inactive) (Halt systems plan inactive) first)
    (hstop : run.stop = some stop) (hbroken : stop ≠ .unfinished) :
    ∃ (past : List (Event S)) (now : Scene S σ) (launch : Launch systems plan inactive now),
      Path (Step systems plan inactive) first past now ∧ run.events = past ++ launch.events ∧
      run.state = launch.after ∧ launch.outcome.verdict.stop? launch.line = some stop := by
  cases hrun with
  | finished _ hnone => cases hnone.symm.trans hstop
  | @stopped past last now reason path halt events hreason =>
    obtain rfl : reason = stop := Option.some.inj (hreason.symm.trans hstop)
    generalize run.state = state at halt ⊢
    cases halt with
    | broken breakdown =>
      obtain ⟨launch, stops⟩ := breakdown
      exact ⟨past, now, launch, path, events, rfl, stops⟩
    | unfinished => exact absurd rfl hbroken

/-- An update that stops is not counted. The caller's state is what the first pass has left of
it. -/
theorem conclude_of_stop {whole : Run S (Scene S σ)} {stop : Stop} (hstop : whole.stop = some stop)
    (ambient : Option (Ambient S)) : conclude whole ambient = { whole.state with ambient } := by
  simp [conclude, hstop]

/-- A drain that an invocation stops has begun a pass: what happened before that invocation begins
with it, since an invocation alone begins otherwise. -/
theorem exists_passing_of_drain {limit : Nat} {scene now : Scene S σ} {past : List (Event S)}
    {launch : Launch systems plan inactive now} {stop : Stop}
    (hevents : (drain (pass systems plan inactive) limit scene).events = past ++ launch.events)
    (hstop : (drain (pass systems plan inactive) limit scene).stop = some stop)
    (hbroken : stop ≠ .unfinished) :
    ∃ state waiting later, past = .passing state waiting :: later := by
  cases hqueue : scene.context.queue with
  | nil =>
    rw [drain_of_nil limit hqueue] at hstop
    cases hstop
  | cons state queue =>
    cases limit with
    | zero =>
      rw [drain_zero_of_cons hqueue] at hstop
      exact absurd (Option.some.inj hstop).symm hbroken
    | succ limit =>
      rw [drain_succ_of_cons limit hqueue] at hevents
      cases past with
      | nil => cases hevents
      | cons event past =>
        obtain ⟨rfl, _⟩ := List.cons.inj hevents
        exact ⟨_, _, past, rfl⟩

/-- A first pass that an invocation stops. No other pass has begun, so the caller's state is the one
that the invocation leaves. -/
theorem exists_launch_of_pass {first : Scene S σ} {stop : Stop}
    (hstop : (pass systems plan inactive first).stop = some stop) (hbroken : stop ≠ .unfinished) :
    ∃ (past : List (Event S)) (now : Scene S σ) (launch : Launch systems plan inactive now),
      Path (Step systems plan inactive) first past now ∧
      (pass systems plan inactive first).events = past ++ launch.events ∧
      (pass systems plan inactive first).state = launch.after ∧
      launch.outcome.verdict.stop? launch.line = some stop ∧
      CallerState (Step systems plan inactive) first now launch.after past
        (pass systems plan inactive first).state.ambient := by
  obtain ⟨past, now, launch, hpath, hevents, hafter, hstops⟩ :=
    exists_launch_of_stop (traced_pass_steps first) hstop hbroken
  have hpassing : (pass systems plan inactive first).events.filterMap Event.passing? = [] :=
    passing_pass first
  rw [hevents, List.filterMap_append, List.append_eq_nil_iff] at hpassing
  exact ⟨past, now, launch, hpath, hevents, hafter, hstops, hafter ▸ .running hpassing.1⟩

/-- The passes of an update that an invocation stops, and what the caller's state is then. Either
the first pass is the one that is stopped, or it came to its end before the first queued state was
taken up. -/
theorem exists_launch_of_passes {limit : Nat} {strategy : Strategy} {first : Scene S σ} {stop : Stop}
    (hstop : (passes (pass systems plan inactive) limit strategy first).stop = some stop)
    (hbroken : stop ≠ .unfinished) :
    ∃ (past : List (Event S)) (now : Scene S σ) (launch : Launch systems plan inactive now),
      Path (Step systems plan inactive) first past now ∧
      (passes (pass systems plan inactive) limit strategy first).events = past ++ launch.events ∧
      (passes (pass systems plan inactive) limit strategy first).state = launch.after ∧
      launch.outcome.verdict.stop? launch.line = some stop ∧
      CallerState (Step systems plan inactive) first now launch.after past
        (pass systems plan inactive first).state.ambient := by
  cases strategy with
  | single => exact exists_launch_of_pass hstop hbroken
  | recursive =>
    have hpasses : passes (pass systems plan inactive) limit .recursive first =
        (pass systems plan inactive first).andThen (drain (pass systems plan inactive) limit) := rfl
    rw [hpasses] at hstop ⊢
    cases hfirst : (pass systems plan inactive first).stop with
    | some reason =>
      rw [Run.andThen_of_stop hfirst] at hstop ⊢
      exact exists_launch_of_pass hstop hbroken
    | none =>
      rw [Run.andThen_of_no_stop hfirst] at hstop ⊢
      obtain ⟨past, now, launch, hpath, hevents, hafter, hstops⟩ :=
        exists_launch_of_stop (traced_drain systems plan inactive limit _) hstop hbroken
      obtain ⟨state, waiting, later, rfl⟩ := exists_passing_of_drain hevents hstop hbroken
      have hbegun := (traced_pass_steps first).path hfirst
      refine ⟨_, now, launch, hbegun.trans hpath, ?_, hafter, hstops,
        .ended (passing_pass first) hbegun hpath rfl⟩
      rw [List.append_assoc, ← hevents]

end Engine

namespace World

/-- A world in which the invocation of an update that comes after `place` others is pardoned. -/
def pardon (world : World S σ) (place : Nat) (isActive : Bool) : World S (σ × Nat) where
  systems := world.systems.map (System.pardon place isActive)
  plan := world.plan
  store := world.store
  context := world.context
  config := world.config
  data := (world.data, 0)

/-- Calls on a world one after another. -/
def Call.runAll (calls : List (World.Call S)) (world : World S σ) : World S σ :=
  calls.foldl (fun world call => call.run world) world

/-- Calls on contexts that an update begins with alike leave such contexts. Removing an entity
strikes it from the inactive ones in both. -/
theorem Call.reset_onContext (call : World.Call S) (store : Store S) {context other : Context S}
    (hreset : other.reset = context.reset) :
    (call.onContext store other).reset = (call.onContext store context).reset := by
  unfold onContext
  split
  case h_1 entity =>
    split
    case h_1 =>
      -- Striking an entity from the active set shows no more once that set is cleared.
      exact congrArg (fun context : Context S =>
        { context with inactive := (context.inactive.remove entity).2 }) hreset
    case h_2 => exact hreset
  case h_2 => exact hreset

/-- Two worlds that differ at most in the active set and in the queue. These are what an update
clears at its beginning. -/
def Alike (world other : World S σ) : Prop :=
  ∃ context, context.reset = world.context.reset ∧ other = { world with context }

/-- A call leaves such worlds alike: it has no part in the queue, and in the active set at most in
striking an entity. -/
theorem Alike.run {world other : World S σ} (halike : world.Alike other) (call : World.Call S) :
    (call.run world).Alike (call.run other) := by
  obtain ⟨context, hreset, rfl⟩ := halike
  rw [call.run_eq, call.run_eq]
  exact ⟨call.onContext world.store context, call.reset_onContext world.store hreset, rfl⟩

theorem Alike.runAll {world other : World S σ} (halike : world.Alike other)
    (calls : List (World.Call S)) :
    (Call.runAll calls world).Alike (Call.runAll calls other) := by
  induction calls generalizing world other with
  | nil => exact halike
  | cons call calls ih => exact ih (halike.run call)

/-- Such worlds are updated in the same way, down to what is left and what is recorded. -/
theorem Alike.updateWith_eq {world other : World S σ} (halike : world.Alike other) (limit : Nat)
    (ambient : Option (Ambient S)) (strategy : Strategy) (inactive : InactiveHandling) :
    other.updateWith limit ambient strategy inactive =
      world.updateWith limit ambient strategy inactive := by
  obtain ⟨context, hreset, rfl⟩ := halike
  have hstart : ({ world with context } : World S σ).start ambient = world.start ambient :=
    congrArg (fun context => { world.start ambient with context }) hreset
  have htick : context.tick = world.context.tick := (congrArg Context.tick hreset :)
  rw [World.updateWith_eq, World.updateWith_eq, passes, passes, hstart, htick]

/-- An update that an invocation breaks off with a stop: `past` is what happened before, `now` the
scene that the invocation is made in, and `after` the one that it leaves. -/
structure Breaks (world : World S σ) (limit : Nat) (ambient : Option (Ambient S))
    (strategy : Strategy) (inactive : InactiveHandling) (stop : Stop) (past : List (Event S))
    (now : Scene S σ) (launch : Engine.Launch world.systems world.plan inactive now)
    (after : Scene S σ) : Prop where
  /-- What was done before is kept: each invocation left what it wrote and a ruling. -/
  path : Path (Engine.Effect world.systems world.plan inactive) (world.start ambient) past now
  /-- All invocations before settle their entities. -/
  settled : ∀ call ∈ past.filterMap Event.invocation?, ∃ isActive, call.2.2 = .settled isActive
  /-- This one fails or panics, and the stop says so. -/
  verdict :
    (∃ reason, launch.outcome.verdict = .failed reason ∧
      stop = .failed (.systemFailed launch.line.name reason)) ∨
    ∃ message, launch.outcome.verdict = .panicked message ∧ stop = .panicked message
  /-- It leaves what its entry point wrote and queued. -/
  leaves : launch.Leaves after
  /-- It makes no ruling. -/
  sides : ∀ side, after.context.side side = now.context.side side
  /-- Nothing happens after it. -/
  events : (world.updateWith limit ambient strategy inactive).events =
    .updating world.context.tick strategy inactive :: (past ++ launch.events)
  left : (world.updateWith limit ambient strategy inactive).state.1 =
    { world with store := after.store, context := after.context, data := after.data }
  /-- Nothing is counted. -/
  tick : after.context.tick = world.context.tick
  caller : Engine.CallerState (Engine.Effect world.systems world.plan inactive)
    (world.start ambient) now after past
    (world.updateWith limit ambient strategy inactive).state.2
  /-- With the invocation pardoned the update goes the same way up to its verdict. -/
  pardoned : ∀ isActive, ∃ rest,
    ((world.pardon (past.filterMap Event.invocation?).length isActive).updateWith limit ambient
      strategy inactive).events =
      .updating world.context.tick strategy inactive ::
        (past ++ Engine.opening launch.line launch.entity launch.outcome.queued ++
          .invoked launch.line launch.entity (.settled isActive) :: rest)

/-- In every world that calls and updates lead to, no parameter of an entry point asks for what
another one of it asks for, since the systems have passed the check. -/
theorem Reached.distinct {world : World S σ} {order : List EntityId}
    (hreached : world.Reached order) : Engine.Distinct world.systems := by
  intro system hsystem shape hshape
  have hcheck := System.check_eq_ok_iff.mp (hreached.consistent.checked system hsystem)
  exact (Signature.check_eq_ok_iff.mp (hcheck shape hshape)).1

/-- An update that stops, short of the limit, is broken off by an invocation. Told by effects,
everything before it is kept, and so is what it wrote and queued itself. -/
theorem Reached.exists_breaks {world : World S σ} {order : List EntityId}
    (hreached : world.Reached order) (limit : Nat) (ambient : Option (Ambient S))
    (strategy : Strategy) (inactive : InactiveHandling) {stop : Stop}
    (hstop : (world.updateWith limit ambient strategy inactive).stop = some stop)
    (hbroken : stop ≠ .unfinished) :
    ∃ past now launch after,
      world.Breaks limit ambient strategy inactive stop past now launch after := by
  let first := world.start ambient
  let whole := world.passes limit ambient strategy inactive
  have hvalid : first.context.Valid := hreached.valid.reset
  have hdistinct := hreached.distinct
  rw [updateWith_eq] at hstop
  have hwhole : whole.stop = some stop := hstop
  obtain ⟨past, now, launch, hpath, hevents, hafter, hstops, hcaller⟩ :=
    Engine.exists_launch_of_passes hwhole hbroken
  refine ⟨past, now, launch, launch.after, (Engine.effects_of_path hdistinct hvalid hpath).2,
    Engine.settled_of_path hpath, Verdict.stop?_eq_some hstops,
    launch.leaves_after (launch.distinct hdistinct), fun side => congrFun launch.side_after side,
    ?_, ?_, launch.tick_after.trans (Engine.tick_of_path hpath), ?_, fun isActive => ?_⟩
  · rw [updateWith_eq]
    exact congrArg _ hevents
  · rw [updateWith_eq, Engine.conclude_of_stop hwhole]
    simp only [← hafter, whole, passes]
  · rw [updateWith_eq]
    exact hcaller.effects hdistinct hvalid
  · have hpardoned := Engine.pardoned_passes (past.filterMap Event.invocation?).length isActive
      world.systems world.plan inactive limit strategy first
    rw [Engine.Launch.events, ← List.append_assoc] at hevents
    obtain ⟨rest, hrest⟩ := hpardoned.exists_events_eq hevents (by
      rw [List.filterMap_append, Engine.filterMap_opening _ _ _ rfl]
      simp [Event.invocation?])
    refine ⟨rest, ?_⟩
    rw [updateWith_eq]
    exact congrArg _ hrest

end World

/-- An update that stops, short of the limit, was broken off by an invocation that failed or
panicked: what was done until then stays, of that invocation what it wrote and queued, nothing is
done after it, and were it pardoned the update would have come to it in the same way. What is left
in the active set and in the queue makes no difference to any later update, whatever calls come
between. -/
theorem update_of_breakdown {world : World S σ} {order : List EntityId}
    (hreached : world.Reached order) (limit : Nat) (ambient : Option (Ambient S))
    (strategy : Strategy) (inactive : InactiveHandling) {stop : Stop}
    (hstop : (world.updateWith limit ambient strategy inactive).stop = some stop)
    (hbroken : stop ≠ .unfinished) :
    let left := (world.updateWith limit ambient strategy inactive).state.1
    (∃ past now launch after,
      world.Breaks limit ambient strategy inactive stop past now launch after) ∧
    ∀ (calls : List (World.Call S)) (limit : Nat) (ambient : Option (Ambient S))
      (strategy : Strategy) (inactive : InactiveHandling),
      (World.Call.runAll calls left).updateWith limit ambient strategy inactive =
        (World.Call.runAll calls
          { left with context := { left.context with active := .empty, queue := [] } }).updateWith
            limit ambient strategy inactive := by
  intro left
  refine ⟨hreached.exists_breaks limit ambient strategy inactive hstop hbroken, ?_⟩
  intro calls limit ambient strategy inactive
  have halike : left.Alike
      { left with context := { left.context with active := .empty, queue := [] } } :=
    ⟨left.context.reset, rfl, rfl⟩
  exact ((halike.runAll calls).updateWith_eq limit ambient strategy inactive).symm

namespace Zoo

/-- A record with one field set, or as it was if the value does not fit. -/
def put (type : TypeId) (field : String) (value : Value) (record : Record (schema.fields type)) :
    Record (schema.fields type) :=
  match schema.setField type record field value with
  | .ok changed => changed
  | .error _ => record

/-- The number that a field reads, if it reads one. -/
def shown (store : Store schema) (type : TypeId) (field : String) (entity : EntityId) :
    Option UInt64 :=
  match store.read entity type field with
  | .ok (some (.uint n)) => some n
  | _ => none

/-- A number as an ambient state. -/
def number (n : UInt8) : Ambient Zoo.schema :=
  ⟨{ name := "u8" }, .u8 n⟩

/-- A system that writes down how many invocations there were before, finds every second entity
active, and queues a number in its first and in its sixth invocation. -/
def tracker : System Zoo.schema Nat where
  id := Zoo.system 0
  shapes :=
    [{ signature := [.component { name := "zoo::Health" } .write, .context]
       invoke := fun (health, view, ()) made =>
         { arguments := (put _ "max" (.uint (.ofNat made)) health, view, ())
           data := made + 1
           enqueued := if made = 0 ∨ made = 5 then [number (.ofNat made)] else []
           verdict := .settled (made % 2 = 0) } }]

/-- A system that only runs for a number. It does the same with another component and with the
number, and panics in the tenth invocation. -/
def breaker : System Zoo.schema Nat where
  id := Zoo.system 1
  shapes :=
    [{ signature := [.component plain.type .write, .state { name := "u8" } .write]
       invoke := fun (record, _, ()) made =>
         { arguments := (put _ "0" (.uint (.ofNat made)) record, .u8 77, ())
           data := made + 1
           verdict := if made = 9 then .panicked "broken" else .settled false } }]

/-- Four entities with the one component, of which all but the second have the other one too, and
both systems. -/
def brittle : World Zoo.schema Nat where
  systems := [tracker, breaker]
  plan := Plan.linesOf tracker 0 0 ++ Plan.linesOf breaker 1 0
  store := Store.Call.runAll
    [ .create [plain, .initial { name := "zoo::Health" }],
      .create [.initial { name := "zoo::Health" }],
      .create [.initial { name := "zoo::Health" }, plain],
      .create [plain, .initial { name := "zoo::Health" }] ] {}
  config := {}
  data := 0

/-- Calls lead to this world, and its entities stand in ascending order, since nobody was placed
again. -/
theorem reached_brittle : brittle.Reached [0, 1, 2, 3] := by
  have hbuilder : Builder.Reached (S := Zoo.schema) _ _ :=
    .call (.addSystem breaker) <| .call (.addSystem tracker) <|
    .call (.create [plain, .initial { name := "zoo::Health" }]) <|
    .call (.create [.initial { name := "zoo::Health" }, plain]) <|
    .call (.create [.initial { name := "zoo::Health" }]) <|
    .call (.create [plain, .initial { name := "zoo::Health" }]) <| .start 0
  exact .built hbuilder rfl

end Zoo

/-- What the caller of an update that stops is told. -/
def Stop.message : Stop → String
  | failed error => error.message
  | panicked message => message
  | unfinished => "unfinished"

/-- The pass for the queued number breaks down at its second invocation that takes the number. All
that was written before and by this invocation is there, and the last entity is as it was. The other
number still waits, and the caller's state is the one that the caller has given. -/
theorem update_of_breakdown_brittle :
    let ambient : Option (Ambient Zoo.schema) := some ⟨{ name := "u16" }, .u16 3⟩
    let run := Zoo.brittle.updateWith 3 ambient .recursive .visit
    let left := run.state.1
    (∃ stop past now launch after,
      Zoo.brittle.Breaks 3 ambient .recursive .visit stop past now launch after ∧
        stop.message = "broken") ∧
    run.invocations.map (·.2.1) = [0, 1, 2, 3, 0, 1, 2, 3, 0, 2] ∧
    [0, 1, 2, 3].map (Zoo.shown left.store { name := "zoo::Health" } "max") =
      [some 4, some 5, some 6, some 7] ∧
    [0, 1, 2, 3].map (Zoo.shown left.store Zoo.plain.type "0") = [some 8, none, some 9, some 0] ∧
    left.data = 10 ∧
    left.context.queue.map (fun state => (state.1, state.2.toNumber)) =
      [({ name := "u8" }, 5)] ∧
    left.context.active.toList = [2] ∧ left.context.inactive.toList = [1, 3, 0] ∧
    left.context.tick = Zoo.brittle.context.tick ∧
    run.state.2.map (fun state => (state.1, state.2.toNumber)) = some ({ name := "u16" }, 3) := by
  intro ambient run left
  have hmessage : run.stop.map Stop.message = some "broken" := by decide +kernel
  obtain ⟨stop, hstop, htold⟩ := Option.map_eq_some_iff.mp hmessage
  have hbroken : stop ≠ .unfinished := by
    rintro rfl
    exact absurd htold (by decide)
  obtain ⟨⟨past, now, launch, after, hbreaks⟩, _⟩ :=
    update_of_breakdown Zoo.reached_brittle 3 ambient .recursive .visit hstop hbroken
  have htick : left.context.tick = Zoo.brittle.context.tick := by
    rw [← hbreaks.tick]
    exact congrArg (·.context.tick) hbreaks.left
  exact ⟨⟨stop, past, now, launch, after, hbreaks, htold⟩, by decide +kernel, by decide +kernel,
    by decide +kernel, by decide +kernel,
    by decide +kernel, by decide +kernel, by decide +kernel, htick, by decide +kernel⟩

end EntityWorld
