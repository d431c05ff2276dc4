import EntityWorld.Proofs.Update.Path

namespace EntityWorld

variable {S : Schema} {σ : Type}

namespace Event

/-- The state that an event queues, if it does. -/
def queued? : Event S → Option (Ambient S)
  | queued state => some state
  | _ => none

/-- The state that an event makes ambient for a pass, if it does. -/
def passing? : Event S → Option (Ambient S)
  | passing state _ => some state
  | _ => none

end Event

/-- Between two scenes the states that waited and those queued since are those that have had their
pass, followed by those that wait. So each pass after the first is for the next state in the order
of queueing. -/
def Scene.Queues (before : Scene S σ) (events : List (Event S)) (after : Scene S σ) : Prop :=
  before.context.queue ++ events.filterMap Event.queued? =
    events.filterMap Event.passing? ++ after.context.queue

theorem Scene.Queues.refl (scene : Scene S σ) : scene.Queues [] scene :=
  List.append_nil _

/-- What is queued later waits behind what was queued before, so the two accounts add up. -/
theorem Scene.Queues.trans {first middle last : Scene S σ} {past future : List (Event S)}
    (hpast : first.Queues past middle) (hfuture : middle.Queues future last) :
    first.Queues (past ++ future) last := by
  unfold Scene.Queues at *
  rw [List.filterMap_append, List.filterMap_append, ← List.append_assoc, hpast, List.append_assoc,
    hfuture, List.append_assoc]

namespace Engine

variable {systems : List (System S σ)} {plan : Plan} {inactive : InactiveHandling}

namespace Launch

variable {scene : Scene S σ} (launch : Launch systems plan inactive scene)

theorem queued_events : launch.events.filterMap Event.queued? = launch.outcome.queued := by
  rw [launch.filterMap_events Event.queued? rfl]
  simp [Event.queued?]

theorem passing_events : launch.events.filterMap Event.passing? = [] := by
  rw [launch.filterMap_events Event.passing? rfl]
  simp [Event.passing?]

theorem queues : scene.Queues launch.events launch.after := by
  rw [Scene.Queues, launch.queued_events, launch.passing_events, launch.context_after]
  rfl

end Launch

theorem queue_settle (context : Context S) (entity : EntityId) (isActive : Bool) :
    (context.settle entity isActive).queue = context.queue := by
  cases isActive <;> rfl

/-- The work of a pass adds to what waits, and takes nothing up. Only invocations have states to
add. -/
theorem Work.queues {scene next : Scene S σ} {events : List (Event S)}
    (hwork : Work systems plan inactive scene events next) : scene.Queues events next := by
  cases hwork with
  | turn line entities => exact .refl scene
  | skip line entity => exact .refl scene
  | settle launch verdict =>
    have hqueues := launch.queues
    rwa [Scene.Queues, ← queue_settle launch.after.context launch.entity _] at hqueues

theorem Breakdown.queues {scene next : Scene S σ} {events : List (Event S)} {stop : Stop}
    (hbreakdown : Breakdown systems plan inactive scene events next stop) :
    scene.Queues events next := by
  cases hbreakdown with
  | mk launch stops => exact launch.queues

/-- The beginning of a pass takes up the state that has waited longest, which moves from those that
wait to those that have had their pass. -/
theorem Step.queues {scene next : Scene S σ} {events : List (Event S)}
    (hstep : Step systems plan inactive scene events next) : scene.Queues events next := by
  cases hstep with
  | work work => exact work.queues
  | pass waits => exact (List.append_nil _).trans waits

theorem Halt.queues {scene next : Scene S σ} {events : List (Event S)} {stop : Stop}
    (hhalt : Halt systems plan inactive scene events next stop) : scene.Queues events next := by
  cases hhalt with
  | broken breakdown => exact breakdown.queues
  | unfinished => exact .refl scene

theorem Work.passing {scene next : Scene S σ} {events : List (Event S)}
    (hwork : Work systems plan inactive scene events next) :
    events.filterMap Event.passing? = [] := by
  cases hwork with
  | turn line entities => rfl
  | skip line entity => rfl
  | settle launch verdict => exact launch.passing_events

theorem Breakdown.passing {scene next : Scene S σ} {events : List (Event S)} {stop : Stop}
    (hbreakdown : Breakdown systems plan inactive scene events next stop) :
    events.filterMap Event.passing? = [] := by
  cases hbreakdown with
  | mk launch stops => exact launch.passing_events

/-- Within a pass no other pass begins. -/
theorem passing_pass (scene : Scene S σ) :
    (pass systems plan inactive scene).events.filterMap Event.passing? = [] := by
  refine (traced_pass systems plan inactive scene).related
    (Q := fun _ events _ => events.filterMap Event.passing? = [])
    (fun _ => rfl) (fun hpast hfuture => ?_) Work.passing Breakdown.passing
  rw [List.filterMap_append, hpast, hfuture]
  rfl

end Engine

/-- The event with which a pass for a queued state begins. -/
def Scene.passing (start : Scene S σ) : List (Event S) :=
  (start.ambient.map fun state => .passing state start.context.queue.length).toList

/-- What happens in the passes that begin at some scenes, each for a queued state. -/
def Engine.eventsOf (pass : Scene S σ → Run S (Scene S σ)) (later : List (Scene S σ)) :
    List (Event S) :=
  later.flatMap fun start => start.passing ++ (pass start).events

/-- Work goes on in the same way if it does from the state that it goes on from. -/
theorem Run.andThen_congr {τ : Type} {run : Run S τ} {next other : τ → Run S τ}
    (hnext : run.stop = none → next run.state = other run.state) :
    run.andThen next = run.andThen other := by
  cases hstop : run.stop with
  | some stop => rw [andThen_of_stop hstop, andThen_of_stop hstop]
  | none => rw [andThen_of_no_stop hstop, andThen_of_no_stop hstop, hnext hstop]

/-- What happened before a run is no part of how it goes on, so it can be put in front
afterwards. -/
theorem Run.prepend_andThen {τ : Type} (past : List (Event S)) (run : Run S τ)
    (next : τ → Run S τ) :
    ({ run with events := past ++ run.events } : Run S τ).andThen next =
      { run.andThen next with events := past ++ (run.andThen next).events } := by
  obtain ⟨state, events, stop⟩ := run
  cases stop with
  | some stop => rfl
  | none => simp [andThen]

namespace Engine

section

variable {pass : Scene S σ → Run S (Scene S σ)}

variable (pass) in
/-- A pass is followed by another: it comes to its end, and the state that has then waited longest
becomes the ambient state of the next. -/
def Succeeds (scene next : Scene S σ) : Prop :=
  (pass scene).stop = none ∧ ∃ state queue, (pass scene).state.context.queue = state :: queue ∧
    next =
      { (pass scene).state with
        context := { (pass scene).state.context with queue }
        ambient := some state }

theorem drain_of_nil (limit : Nat) {scene : Scene S σ} (hqueue : scene.context.queue = []) :
    drain pass limit scene = { state := scene } := by
  unfold drain
  rw [dequeue?_eq_none.mpr hqueue]

theorem drain_zero_of_cons {scene : Scene S σ} {state : Ambient S} {queue : List (Ambient S)}
    (hqueue : scene.context.queue = state :: queue) :
    drain pass 0 scene = { state := scene, stop := some .unfinished } := by
  unfold drain
  rw [dequeue?_eq_some.mpr ⟨queue, hqueue, rfl⟩]

/-- Draining a queue begins with a pass for its head, and goes on with what that pass leaves
waiting. -/
theorem drain_succ_of_cons (limit : Nat) {scene : Scene S σ} {state : Ambient S}
    {queue : List (Ambient S)} (hqueue : scene.context.queue = state :: queue) :
    let start : Scene S σ :=
      { scene with context := { scene.context with queue }, ambient := some state }
    let whole := passes pass limit .recursive start
    drain pass (limit + 1) scene = { whole with events := start.passing ++ whole.events } := by
  intro start whole
  have hwhole : whole = (pass start).andThen (drain pass limit) := rfl
  rw [hwhole, drain, dequeue?_eq_some.mpr ⟨queue, hqueue, rfl⟩]
  exact Run.prepend_andThen start.passing (pass start) (drain pass limit)

/-- The passes of an update, told by the scenes at which those after the first begin. The first that
stops is the last of them. If none stops, a recursive update ends with no state waiting, unless
there would have to be more passes than the limit allows. -/
structure Sequence (pass : Scene S σ → Run S (Scene S σ)) (limit : Nat) (strategy : Strategy)
    (first : Scene S σ) (later : List (Scene S σ)) : Prop where
  succeeds : (first :: later).IsChain (Succeeds pass)
  single : strategy = .single → later = []
  events : (passes pass limit strategy first).events = (pass first).events ++ eventsOf pass later
  state : (passes pass limit strategy first).state = (pass (later.getLastD first)).state
  stop :
    (passes pass limit strategy first).stop = (pass (later.getLastD first)).stop ∧
      ((passes pass limit strategy first).stop = none → strategy = .recursive →
        (passes pass limit strategy first).state.context.queue = []) ∨
    (passes pass limit strategy first).stop = some .unfinished ∧
      (pass (later.getLastD first)).stop = none ∧ strategy = .recursive ∧ later.length = limit ∧
      (passes pass limit strategy first).state.context.queue ≠ []

namespace Sequence

variable {limit : Nat} {first : Scene S σ}

theorem of_single : Sequence pass limit .single first [] :=
  ⟨.singleton first, fun _ => rfl, (List.append_nil _).symm, rfl, .inl ⟨rfl, nofun⟩⟩

theorem of_stop {stop : Stop} (hstop : (pass first).stop = some stop) :
    Sequence pass limit .recursive first [] := by
  have hwhole : passes pass limit .recursive first = pass first := Run.andThen_of_stop hstop _
  refine ⟨.singleton first, fun _ => rfl, ?_, ?_, .inl ⟨?_, ?_⟩⟩ <;> rw [hwhole]
  · exact (List.append_nil _).symm
  · rfl
  · rfl
  · simp [hstop]

theorem of_nil (hstop : (pass first).stop = none) (hqueue : (pass first).state.context.queue = []) :
    Sequence pass limit .recursive first [] := by
  have hwhole : passes pass limit .recursive first = _ := Run.andThen_of_no_stop hstop _
  rw [drain_of_nil limit hqueue] at hwhole
  refine ⟨.singleton first, fun _ => rfl, ?_, ?_, .inl ⟨?_, fun _ _ => ?_⟩⟩ <;> rw [hwhole]
  · rfl
  · rfl
  · exact hstop.symm
  · exact hqueue

/-- Where the limit leaves no room for a second pass, the states that the first one leaves still
wait. -/
theorem of_cons {state : Ambient S} {queue : List (Ambient S)} (hstop : (pass first).stop = none)
    (hqueue : (pass first).state.context.queue = state :: queue) :
    Sequence pass 0 .recursive first [] := by
  have hwhole : passes pass 0 .recursive first = _ := Run.andThen_of_no_stop hstop _
  rw [drain_zero_of_cons hqueue] at hwhole
  refine ⟨.singleton first, fun _ => rfl, ?_, ?_, .inr ⟨?_, hstop, rfl, rfl, ?_⟩⟩ <;> rw [hwhole]
  · rfl
  · rfl
  · simp [hqueue]

/-- After the first pass the others go on from the next one, with one less to make. Stops and queues
are those of the rest. -/
theorem cons {next : Scene S σ} {later : List (Scene S σ)} (hnext : Succeeds pass first next)
    (hlater : Sequence pass limit .recursive next later) :
    Sequence pass (limit + 1) .recursive first (next :: later) := by
  have ⟨hstop, state, queue, hqueue, heq⟩ := hnext
  have hwhole : passes pass (limit + 1) .recursive first = _ := Run.andThen_of_no_stop hstop _
  rw [drain_succ_of_cons limit hqueue, ← heq] at hwhole
  have hlast : (next :: later).getLastD first = later.getLastD next := List.getLastD_cons
  refine ⟨.cons_cons hnext hlater.succeeds, nofun, ?_, ?_, ?_⟩ <;> rw [hwhole]
  · simp only [hlater.events, eventsOf, List.flatMap_cons, List.append_assoc]
  · rw [hlast]
    exact hlater.state
  · rw [hlast]
    rcases hlater.stop with hfinished | ⟨hunfinished, hpass, _, hlength, hwaits⟩
    · exact .inl hfinished
    · exact .inr ⟨hunfinished, hpass, rfl, congrArg (· + 1) hlength, hwaits⟩

end Sequence

variable (pass) in
/-- Every update makes some sequence of passes. The induction is over the limit, which each pass for
a queued state takes one from. -/
theorem exists_sequence (limit : Nat) (strategy : Strategy) (first : Scene S σ) :
    ∃ later, Sequence pass limit strategy first later := by
  cases strategy with
  | single => exact ⟨[], .of_single⟩
  | recursive =>
    cases hstop : (pass first).stop with
    | some stop => exact ⟨[], .of_stop hstop⟩
    | none =>
      cases hqueue : (pass first).state.context.queue with
      | nil => exact ⟨[], .of_nil hstop hqueue⟩
      | cons state queue =>
        cases limit with
        | zero => exact ⟨[], .of_cons hstop hqueue⟩
        | succ limit =>
          -- The passes from the next one on have the rest of the limit.
          obtain ⟨later, hlater⟩ := exists_sequence limit .recursive _
          exact ⟨_ :: later, hlater.cons ⟨hstop, state, queue, hqueue, rfl⟩⟩

/-- A pass that stops is the last, for no other follows on it. -/
theorem length_eq_of_stop {first start : Scene S σ} {later : List (Scene S σ)} {stop : Stop}
    (hchain : (first :: later).IsChain (Succeeds pass)) {number : Nat}
    (hstart : (first :: later)[number]? = some start) (hstop : (pass start).stop = some stop) :
    later.length = number ∧ later.getLastD first = start := by
  induction later generalizing first number with
  | nil =>
    obtain ⟨hlt, rfl⟩ := List.getElem?_eq_some_iff.mp hstart
    simp at hlt
    simp [hlt]
  | cons next later ih =>
    obtain ⟨hnext, hrest⟩ := List.isChain_cons_cons.mp hchain
    cases number with
    | zero =>
      obtain rfl := Option.some.inj hstart
      exact absurd (hnext.1.symm.trans hstop) (by simp)
    | succ number =>
      obtain ⟨hlength, hlast⟩ := ih hrest hstart
      exact ⟨congrArg (· + 1) hlength, hlast ▸ List.getLastD_cons⟩

/-- The states that the passes after the first are for are the ambient ones at their beginnings. -/
theorem map_some_passing {first : Scene S σ} {later : List (Scene S σ)}
    (hpass : ∀ scene, (pass scene).events.filterMap Event.passing? = [])
    (hchain : (first :: later).IsChain (Succeeds pass)) :
    ((eventsOf pass later).filterMap Event.passing?).map some = later.map Scene.ambient := by
  induction later generalizing first with
  | nil => rfl
  | cons next later ih =>
    obtain ⟨⟨_, state, queue, _, hnext⟩, hrest⟩ := List.isChain_cons_cons.mp hchain
    have hambient : next.ambient = some state := congrArg Scene.ambient hnext
    have hfirst : (eventsOf pass (next :: later)).filterMap Event.passing? =
        state :: (eventsOf pass later).filterMap Event.passing? := by
      simp [eventsOf, Scene.passing, hambient, hpass, Event.passing?]
    rw [hfirst, List.map_cons, List.map_cons, ih hrest, hambient]

/-- Each pass after the first is for the next of the states that the passes queue, and those that no
pass was made for still wait. -/
theorem Sequence.queued {limit : Nat} {strategy : Strategy} {first : Scene S σ}
    {later : List (Scene S σ)}
    (hpass : ∀ scene, (pass scene).events.filterMap Event.passing? = [])
    (hlater : Sequence pass limit strategy first later)
    (hqueues : first.Queues (passes pass limit strategy first).events
      (passes pass limit strategy first).state)
    (hfirst : first.context.queue = []) :
    let queued := (passes pass limit strategy first).events.filterMap Event.queued?
    later.length ≤ queued.length ∧
      later.map Scene.ambient = (queued.take later.length).map some ∧
      (passes pass limit strategy first).state.context.queue = queued.drop later.length := by
  intro queued
  have hpassing := map_some_passing hpass hlater.succeeds
  have hlength := congrArg List.length hpassing
  rw [List.length_map, List.length_map] at hlength
  have hpassed : (passes pass limit strategy first).events.filterMap Event.passing? =
      (eventsOf pass later).filterMap Event.passing? := by
    rw [hlater.events, List.filterMap_append, hpass, List.nil_append]
  have hsplit : queued = (eventsOf pass later).filterMap Event.passing? ++
      (passes pass limit strategy first).state.context.queue := by
    rw [← hpassed, ← hqueues, hfirst, List.nil_append]
  rw [hsplit, ← hlength, List.take_left, List.drop_left, List.length_append]
  exact ⟨Nat.le_add_right _ _, hpassing.symm, rfl⟩

/-- A greater limit makes no difference to what comes to its end within the limit, or stops there
for another reason. -/
theorem drain_of_le {limit more : Nat} (hle : limit ≤ more) {scene : Scene S σ}
    (hstop : (drain pass limit scene).stop ≠ some .unfinished) :
    drain pass more scene = drain pass limit scene := by
  induction limit generalizing more scene with
  | zero =>
    cases hqueue : scene.context.queue with
    | nil => rw [drain_of_nil more hqueue, drain_of_nil 0 hqueue]
    | cons state queue =>
      rw [drain_zero_of_cons hqueue] at hstop
      exact absurd rfl hstop
  | succ limit ih =>
    obtain ⟨more, rfl⟩ : ∃ less, more = less + 1 := ⟨more - 1, by omega⟩
    cases hqueue : scene.context.queue with
    | nil => rw [drain_of_nil _ hqueue, drain_of_nil _ hqueue]
    | cons state queue =>
      rw [drain_succ_of_cons limit hqueue] at hstop
      rw [drain_succ_of_cons more hqueue, drain_succ_of_cons limit hqueue]
      let start : Scene S σ :=
        { scene with context := { scene.context with queue }, ambient := some state }
      have hwhole : passes pass more .recursive start = passes pass limit .recursive start :=
        Run.andThen_congr fun hfirst => ih (Nat.le_of_succ_le_succ hle) fun hunfinished =>
          hstop ((congrArg Run.stop (Run.andThen_of_no_stop hfirst _)).trans hunfinished)
      rw [hwhole]

/-- A greater limit makes no difference to passes that come to their end within the limit. -/
theorem passes_of_le {limit more : Nat} (hle : limit ≤ more) {strategy : Strategy}
    {first : Scene S σ} (hstop : (passes pass limit strategy first).stop ≠ some .unfinished) :
    passes pass more strategy first = passes pass limit strategy first := by
  cases strategy with
  | single => rfl
  | recursive =>
    exact Run.andThen_congr fun hfirst => drain_of_le hle fun hunfinished =>
      hstop ((congrArg Run.stop (Run.andThen_of_no_stop hfirst _)).trans hunfinished)

end

theorem tick_settle (context : Context S) (entity : EntityId) (isActive : Bool) :
    (context.settle entity isActive).tick = context.tick := by
  cases isActive <;> rfl

theorem Launch.tick_after {scene : Scene S σ} (launch : Launch systems plan inactive scene) :
    launch.after.context.tick = scene.context.tick :=
  (congrArg Context.tick launch.context_after :)

theorem Step.tick {scene next : Scene S σ} {events : List (Event S)}
    (hstep : Step systems plan inactive scene events next) :
    next.context.tick = scene.context.tick := by
  cases hstep with
  | work work =>
    cases work with
    | turn line entities => rfl
    | skip line entity => rfl
    | settle launch verdict =>
      exact (tick_settle launch.after.context launch.entity _).trans launch.tick_after
  | pass waits => rfl

theorem tick_of_path {first now : Scene S σ} {past : List (Event S)}
    (hpath : Path (Step systems plan inactive) first past now) :
    now.context.tick = first.context.tick := by
  induction hpath with
  | refl => rfl
  | step _ hstep ih => exact hstep.tick.trans ih

theorem Halt.tick {scene next : Scene S σ} {events : List (Event S)} {stop : Stop}
    (hhalt : Halt systems plan inactive scene events next stop) :
    next.context.tick = scene.context.tick := by
  cases hhalt with
  | broken breakdown =>
    cases breakdown with
    | mk launch stops => exact launch.tick_after
  | unfinished => rfl

/-- The passes of an update count nothing. Only an update that comes to its end is counted, and that
once. -/
theorem tick_passes (limit : Nat) (strategy : Strategy) (first : Scene S σ) :
    (passes (pass systems plan inactive) limit strategy first).state.context.tick =
      first.context.tick :=
  (traced_passes systems plan inactive limit strategy first).related
    (Q := fun (before : Scene S σ) _ (after : Scene S σ) =>
      after.context.tick = before.context.tick) (fun _ => rfl)
    (fun hpast hfuture => hfuture.trans hpast) Step.tick Halt.tick

end Engine

end EntityWorld
