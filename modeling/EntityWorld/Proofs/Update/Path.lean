import EntityWorld.Proofs.Plan
import EntityWorld.Proofs.Update.Invoke

namespace EntityWorld

variable {S : Schema} {σ τ ι : Type}

/-- Steps of a kind one after another, and the events that record them. What each step keeps, a path
keeps, so properties of updates come down to properties of their steps. -/
inductive Path {ε : Type} (R : τ → List ε → τ → Prop) : τ → List ε → τ → Prop
  | refl (state : τ) : Path R state [] state
  | step {first middle last : τ} {past events : List ε} (before : Path R first past middle)
      (step : R middle events last) : Path R first (past ++ events) last

namespace Path

variable {ε : Type} {R : τ → List ε → τ → Prop}

theorem single {first last : τ} {events : List ε} (hstep : R first events last) :
    Path R first events last :=
  .step (.refl first) hstep

theorem trans {first middle last : τ} {past future : List ε} (hpast : Path R first past middle)
    (hfuture : Path R middle future last) : Path R first (past ++ future) last := by
  induction hfuture with
  | refl => rwa [List.append_nil]
  | step _ hstep ih =>
    rw [← List.append_assoc]
    exact .step ih hstep

theorem mono {R' : τ → List ε → τ → Prop} {first last : τ} {events : List ε}
    (hpath : Path R first events last)
    (hsteps : ∀ {state events next}, R state events next → R' state events next) :
    Path R' first events last := by
  induction hpath with
  | refl => exact .refl _
  | step _ hstep ih => exact .step ih (hsteps hstep)

/-- What each step brings about, and what holds one after another, a path brings about. This is the
induction over paths that all properties of updates use. -/
theorem related {Q : τ → List ε → τ → Prop} {first last : τ} {events : List ε}
    (hpath : Path R first events last) (hrefl : ∀ state, Q state [] state)
    (htrans : ∀ {first middle last past future}, Q first past middle → Q middle future last →
      Q first (past ++ future) last)
    (hsteps : ∀ {state events next}, R state events next → Q state events next) :
    Q first events last := by
  induction hpath with
  | refl => exact hrefl _
  | step _ hstep ih => exact htrans ih (hsteps hstep)

end Path

namespace Run

/-- A run follows a path to its end, or to the state in which it stops. `H` tells how that can come
about, and by which last events. -/
inductive Traced (R : τ → List (Event S) → τ → Prop) (H : τ → List (Event S) → τ → Stop → Prop)
    (first : τ) (run : Run S τ) : Prop
  | finished (path : Path R first run.events run.state) (stop : run.stop = none)
  | stopped {past last : List (Event S)} {middle : τ} {reason : Stop}
      (path : Path R first past middle) (halt : H middle last run.state reason)
      (events : run.events = past ++ last) (stop : run.stop = some reason)

variable {R : τ → List (Event S) → τ → Prop} {H : τ → List (Event S) → τ → Stop → Prop}

theorem Traced.path {first : τ} {run : Run S τ} (hrun : run.Traced R H first)
    (hstop : run.stop = none) : Path R first run.events run.state := by
  cases hrun with
  | finished path => exact path
  | stopped _ _ _ stop => cases hstop.symm.trans stop

theorem traced_idle (state : τ) : ({ state } : Run S τ).Traced R H state :=
  .finished (.refl state) rfl

/-- A run is traced by other steps and halts if each of its own is one of these. -/
theorem Traced.mono {R' : τ → List (Event S) → τ → Prop}
    {H' : τ → List (Event S) → τ → Stop → Prop} {first : τ} {run : Run S τ}
    (hrun : run.Traced R H first)
    (hsteps : ∀ {state events next}, R state events next → R' state events next)
    (hhalts : ∀ {state events next stop}, H state events next stop → H' state events next stop) :
    run.Traced R' H' first := by
  cases hrun with
  | finished path stop => exact .finished (path.mono hsteps) stop
  | stopped path halt events stop => exact .stopped (path.mono hsteps) (hhalts halt) events stop

/-- What each step and each halt brings about, and what holds one after another, a run brings
about. -/
theorem Traced.related {Q : τ → List (Event S) → τ → Prop} {first : τ} {run : Run S τ}
    (hrun : run.Traced R H first) (hrefl : ∀ state, Q state [] state)
    (htrans : ∀ {first middle last past future}, Q first past middle → Q middle future last →
      Q first (past ++ future) last)
    (hsteps : ∀ {state events next}, R state events next → Q state events next)
    (hhalts : ∀ {state events next stop}, H state events next stop → Q state events next) :
    Q first run.events run.state := by
  cases hrun with
  | finished path => exact path.related hrefl htrans hsteps
  | stopped path halt events =>
    rw [events]
    exact htrans (path.related hrefl htrans hsteps) (hhalts halt)

/-- Going on from the end of a path. -/
theorem Traced.after_path {first middle : τ} {past : List (Event S)} {run : Run S τ}
    (hpath : Path R first past middle) (hrun : run.Traced R H middle) :
    ({ run with events := past ++ run.events } : Run S τ).Traced R H first := by
  cases hrun with
  | finished path stop => exact .finished (hpath.trans path) stop
  | stopped path halt events stop =>
    exact .stopped (hpath.trans path) halt (by rw [events, List.append_assoc]) stop

/-- Work that goes on from a run follows a path on from where the run has come to, and if the run
has stopped there is nothing to follow. -/
theorem Traced.andThen {first : τ} {run : Run S τ} {next : τ → Run S τ}
    (hrun : run.Traced R H first)
    (hnext : run.stop = none → (next run.state).Traced R H run.state) :
    (run.andThen next).Traced R H first := by
  cases hstop : run.stop with
  | some stop => rwa [andThen_of_stop hstop]
  | none =>
    rw [andThen_of_no_stop hstop]
    exact .after_path (hrun.path hstop) (hnext hstop)

/-- Work on one item after another follows a path if it does for each. The induction is over the
items. -/
theorem traced_forEach {work : ι → τ → Run S τ} {items : List ι}
    (hwork : ∀ item ∈ items, ∀ state, (work item state).Traced R H state) (state : τ) :
    (forEach work items state).Traced R H state := by
  induction items generalizing state with
  | nil => exact traced_idle state
  | cons item items ih =>
    refine (hwork item List.mem_cons_self state).andThen fun _ => ?_
    exact ih (fun later hlater => hwork later (List.mem_cons_of_mem item hlater)) _

end Run

namespace Engine

/-- An entry point that is about to run: it stands for a line of the plan, its entity lives and is
not to be passed by, and all of its arguments are found. -/
structure Launch (systems : List (System S σ)) (plan : Plan) (inactive : InactiveHandling)
    (scene : Scene S σ) where
  line : Plan.Line
  shape : Shape S σ
  entity : EntityId
  row : Row S
  arguments : Arguments S shape.signature
  planned : line ∈ plan
  stands : line.shape? systems = some shape
  heeded : ¬(inactive = .passBy ∧ scene.context.inactive.contains entity)
  lives : scene.store.rows[entity]? = some row
  bound : Arguments.bind? row scene.ambient scene.context.view shape.signature = some arguments

namespace Launch

variable {systems : List (System S σ)} {plan : Plan} {inactive : InactiveHandling}
  {scene : Scene S σ}

/-- What the entry point makes of its arguments and the private data. -/
def outcome (launch : Launch systems plan inactive scene) : Outcome S σ launch.shape.signature :=
  launch.shape.invoke launch.arguments scene.data

/-- The scene that the entry point leaves, before its verdict is heeded. -/
def after (launch : Launch systems plan inactive scene) : Scene S σ :=
  absorb scene launch.entity launch.row launch.outcome

/-- The events of the invocation, up to its verdict and with it. -/
def events (launch : Launch systems plan inactive scene) : List (Event S) :=
  opening launch.line launch.entity launch.outcome.queued ++
    [.invoked launch.line launch.entity launch.outcome.verdict]

/-- What is read off the events of an invocation, where nothing is read off its beginning. -/
theorem filterMap_events {α : Type} (read? : Event S → Option α)
    (launch : Launch systems plan inactive scene)
    (hinvoking : read? (.invoking launch.line launch.entity) = none) :
    launch.events.filterMap read? =
      launch.outcome.queued.filterMap (fun state => read? (.queued state)) ++
        (read? (.invoked launch.line launch.entity launch.outcome.verdict)).toList := by
  rw [events, List.filterMap_append, filterMap_opening _ _ _ hinvoking]
  cases hread : read? (.invoked launch.line launch.entity launch.outcome.verdict) <;> simp [hread]

theorem invocations_events (launch : Launch systems plan inactive scene) :
    launch.events.filterMap Event.invocation? =
      [(launch.line, launch.entity, launch.outcome.verdict)] := by
  rw [launch.filterMap_events Event.invocation? rfl]
  simp [Event.invocation?]

/-- The entry point changes nothing in the context but the queue. -/
theorem context_after (launch : Launch systems plan inactive scene) :
    launch.after.context =
      { scene.context with queue := scene.context.queue ++ launch.outcome.queued } := by
  unfold after absorb Outcome.queued
  simp only
  split
  · rfl
  · rw [List.append_nil]

/-- An entry point changes no row but that of its entity. It gets hold of no other. -/
theorem rows_after_of_ne (launch : Launch systems plan inactive scene) {other : EntityId}
    (hne : other ≠ launch.entity) :
    launch.after.store.rows[other]? = scene.store.rows[other]? := by
  simp [after, absorb, Std.ExtTreeMap.getElem?_insert, hne.symm]

theorem rows_after_entity (launch : Launch systems plan inactive scene) :
    launch.after.store.rows[launch.entity]? =
      some (Arguments.writeRow launch.shape.signature launch.outcome.arguments launch.row) := by
  simp [after, absorb]

end Launch

/-- What a pass is made of: a line has its turn, an entry point is passed over for want of an
argument, or it runs and settles its entity. -/
inductive Work (systems : List (System S σ)) (plan : Plan) (inactive : InactiveHandling) :
    Scene S σ → List (Event S) → Scene S σ → Prop
  | turn (line : Plan.Line) (entities : Nat) (scene : Scene S σ) :
      Work systems plan inactive scene [.executing line entities] scene
  | skip (line : Plan.Line) (entity : EntityId) (scene : Scene S σ) :
      Work systems plan inactive scene [.invoking line entity, .unbound line entity] scene
  | settle {scene : Scene S σ} (launch : Launch systems plan inactive scene) {isActive : Bool}
      (verdict : launch.outcome.verdict = .settled isActive) :
      Work systems plan inactive scene launch.events
        { launch.after with context := launch.after.context.settle launch.entity isActive }

/-- How a pass breaks down: an entry point fails or panics. -/
inductive Breakdown (systems : List (System S σ)) (plan : Plan) (inactive : InactiveHandling) :
    Scene S σ → List (Event S) → Scene S σ → Stop → Prop
  | mk {scene : Scene S σ} (launch : Launch systems plan inactive scene) {stop : Stop}
      (stops : launch.outcome.verdict.stop? launch.line = some stop) :
      Breakdown systems plan inactive scene launch.events launch.after stop

variable {systems : List (System S σ)} {plan : Plan} {inactive : InactiveHandling}

/-- An invocation with all of its arguments, as an update runs it: what it leaves is the scene after
the launch, settled or stopped by its verdict. -/
theorem invoke_launch {scene : Scene S σ} (launch : Launch systems plan inactive scene) :
    invoke launch.line launch.shape launch.entity launch.row scene =
      { state :=
          { launch.after with
            context := launch.after.context.heed launch.entity launch.outcome.verdict }
        events := launch.events
        stop := launch.outcome.verdict.stop? launch.line } :=
  invoke_of_bound launch.line launch.entity launch.bound

/-- Visiting an entity is at most one step: the entity is passed by, passed over, or run on. -/
theorem traced_visit {line : Plan.Line} (hline : line ∈ plan) {shape : Shape S σ}
    (hshape : line.shape? systems = some shape) (entity : EntityId) (scene : Scene S σ) :
    (visit line shape inactive entity scene).Traced (Work systems plan inactive)
      (Breakdown systems plan inactive) scene := by
  unfold visit
  split
  · exact Run.traced_idle scene
  case isFalse hheeded =>
    split
    case h_1 => exact Run.traced_idle scene
    case h_2 row hrow =>
      cases hbound : Arguments.bind? row scene.ambient scene.context.view shape.signature with
      | none =>
        rw [invoke_of_unbound line entity hbound]
        exact .finished (.single (.skip line entity scene)) rfl
      | some arguments =>
        let launch : Launch systems plan inactive scene :=
          ⟨line, shape, entity, row, arguments, hline, hshape, hheeded, hrow, hbound⟩
        rw [invoke_launch launch]
        cases hverdict : launch.outcome.verdict with
        | settled isActive => exact .finished (.single (.settle launch hverdict)) rfl
        | failed _ | panicked _ =>
          exact .stopped (.refl scene) (.mk launch (by rw [hverdict]; rfl)) rfl rfl

theorem traced_runLine {line : Plan.Line} (hline : line ∈ plan) (scene : Scene S σ) :
    (runLine systems inactive line scene).Traced (Work systems plan inactive)
      (Breakdown systems plan inactive) scene := by
  unfold runLine
  split
  · split
    case h_1 bucket shape _ hshape =>
      have hsweep : (Run.forEach (visit line shape inactive) bucket.toList scene).Traced
          (Work systems plan inactive) (Breakdown systems plan inactive) scene :=
        Run.traced_forEach (fun entity _ => traced_visit hline hshape entity) scene
      exact .after_path (.single (.turn line bucket.size scene)) hsweep
    case h_2 => exact Run.traced_idle scene
  · exact Run.traced_idle scene

variable (systems plan inactive) in
/-- A pass follows a path of such steps, and if it stops, an entry point broke it. Nothing else can
keep a pass from its end. -/
theorem traced_pass (scene : Scene S σ) :
    (pass systems plan inactive scene).Traced (Work systems plan inactive)
      (Breakdown systems plan inactive) scene :=
  Run.traced_forEach (fun _ => traced_runLine) scene

variable (systems plan inactive) in
/-- What an update is made of: the work of its passes, and the start of a pass for the state that
has waited longest. -/
inductive Step : Scene S σ → List (Event S) → Scene S σ → Prop
  | work {scene next : Scene S σ} {events : List (Event S)}
      (work : Work systems plan inactive scene events next) : Step scene events next
  | pass {scene : Scene S σ} {state : Ambient S} {queue : List (Ambient S)}
      (waits : scene.context.queue = state :: queue) :
      Step scene [.passing state queue.length]
        { scene with context := { scene.context with queue }, ambient := some state }

variable (systems plan inactive) in
/-- How an update ends early: a pass breaks down, or too many passes would be made. -/
inductive Halt : Scene S σ → List (Event S) → Scene S σ → Stop → Prop
  | broken {scene next : Scene S σ} {events : List (Event S)} {stop : Stop}
      (breakdown : Breakdown systems plan inactive scene events next stop) :
      Halt scene events next stop
  | unfinished (scene : Scene S σ) : Halt scene [] scene .unfinished

/-- The state that has waited longest is taken up, and the others still wait. -/
theorem dequeue?_eq_some {context rest : Context S} {state : Ambient S} :
    context.dequeue? = some (state, rest) ↔
      ∃ queue, context.queue = state :: queue ∧ rest = { context with queue } := by
  unfold Context.dequeue?
  split
  case h_1 hqueue => simp [hqueue]
  case h_2 head queue hqueue =>
    simp only [hqueue, Option.some.injEq, Prod.mk.injEq, List.cons.injEq]
    grind

theorem dequeue?_eq_none {context : Context S} : context.dequeue? = none ↔ context.queue = [] := by
  unfold Context.dequeue?
  split <;> simp [*]

theorem traced_pass_steps (scene : Scene S σ) :
    (pass systems plan inactive scene).Traced (Step systems plan inactive)
      (Halt systems plan inactive) scene :=
  (traced_pass systems plan inactive scene).mono .work .broken

variable (systems plan inactive) in
/-- Passes for queued states follow a path, in which each begins by taking up its state. -/
theorem traced_drain (limit : Nat) (scene : Scene S σ) :
    (drain (pass systems plan inactive) limit scene).Traced (Step systems plan inactive)
      (Halt systems plan inactive) scene := by
  induction limit generalizing scene with
  | zero =>
    unfold drain
    split
    case h_1 => exact Run.traced_idle scene
    case h_2 => exact .stopped (.refl scene) (.unfinished scene) rfl rfl
  | succ limit ih =>
    unfold drain
    split
    case h_1 => exact Run.traced_idle scene
    case h_2 state context hnext =>
      obtain ⟨queue, hqueue, rfl⟩ := dequeue?_eq_some.mp hnext
      let start : Scene S σ :=
        { scene with context := { scene.context with queue }, ambient := some state }
      have hstep : Step systems plan inactive scene [.passing state queue.length] start :=
        .pass hqueue
      exact ((traced_pass_steps start).after_path (.single hstep)).andThen fun _ => ih _

/-- The passes of an update, from the scene with which it begins them. -/
def passes (pass : Scene S σ → Run S (Scene S σ)) (limit : Nat) (strategy : Strategy)
    (scene : Scene S σ) : Run S (Scene S σ) :=
  if strategy = .recursive then (pass scene).andThen (drain pass limit) else pass scene

variable (systems plan inactive) in
/-- The passes of an update follow a path of its steps, to its end or to what stops it. -/
theorem traced_passes (limit : Nat) (strategy : Strategy) (scene : Scene S σ) :
    (passes (pass systems plan inactive) limit strategy scene).Traced (Step systems plan inactive)
      (Halt systems plan inactive) scene := by
  unfold passes
  split
  · exact (traced_pass_steps scene).andThen fun _ => traced_drain systems plan inactive limit _
  · exact traced_pass_steps scene

/-- The scene that an update leaves after its passes. It counts if they came to their end, and the
ambient state is the caller's. -/
def conclude (whole : Run S (Scene S σ)) (ambient : Option (Ambient S)) : Scene S σ :=
  let tick := whole.state.context.tick
  { whole.state with
    context := { whole.state.context with tick := if whole.stop.isNone then tick.next else tick }
    ambient }

/-- An update clears the active entities and the queue, makes its passes and concludes them. The
inactive entities outlast it. -/
theorem updateBy_eq (pass : Scene S σ → Run S (Scene S σ)) (limit : Nat) (strategy : Strategy)
    (inactive : InactiveHandling) (scene : Scene S σ) :
    let start := { scene with context := scene.context.reset }
    let whole := passes pass limit strategy start
    updateBy pass limit strategy inactive scene =
      { state := conclude whole (pass start).state.ambient
        events := .updating scene.context.tick strategy inactive :: whole.events
        stop := whole.stop } := by
  intro start whole
  have hrest : (if strategy = .recursive then (pass start).andThen (drain pass limit)
      else pass start) = whole := rfl
  unfold updateBy conclude
  simp only [start, whole] at hrest
  simp only [hrest]
  cases hstop : whole.stop with
  | none =>
    rw [Run.andThen_of_no_stop hstop]
    simp [whole, start, Context.advance]
  | some stop =>
    rw [Run.andThen_of_stop hstop]
    simp [hstop, whole, start]

/-- What the beginning of an update, each step and halt, and its conclusion bring about, and what
holds one after another, an update brings about. -/
theorem related_update {Q : Scene S σ → List (Event S) → Scene S σ → Prop}
    (hrefl : ∀ scene, Q scene [] scene)
    (htrans : ∀ {first middle last past future}, Q first past middle → Q middle future last →
      Q first (past ++ future) last)
    (hsteps : ∀ {scene events next}, Step systems plan inactive scene events next →
      Q scene events next)
    (hhalts : ∀ {scene events next stop}, Halt systems plan inactive scene events next stop →
      Q scene events next)
    (limit : Nat) (strategy : Strategy) (scene : Scene S σ)
    (hbegin : Q scene [.updating scene.context.tick strategy inactive]
      { scene with context := scene.context.reset })
    (hconclude : ∀ (whole : Run S (Scene S σ)) (ambient : Option (Ambient S)),
      Q whole.state [] (conclude whole ambient)) :
    Q scene (update systems plan limit strategy inactive scene).events
      (update systems plan limit strategy inactive scene).state := by
  let start : Scene S σ := { scene with context := scene.context.reset }
  let whole := passes (pass systems plan inactive) limit strategy start
  have hpasses : Q start whole.events whole.state :=
    (traced_passes systems plan inactive limit strategy start).related hrefl htrans hsteps hhalts
  have hwhole := htrans (htrans hbegin hpasses)
    (hconclude whole (pass systems plan inactive start).state.ambient)
  rw [List.append_nil] at hwhole
  rw [update, updateBy_eq]
  exact hwhole

end Engine

end EntityWorld
