import EntityWorld.Proofs.Update.Passes

namespace EntityWorld

variable {S : Schema} {σ : Type}

section

variable (place : Nat) (isActive : Bool)

/-- An entry point that counts the invocations of all systems next to their data. The one after
`place` others is pardoned: it makes the same changes, but whatever its verdict would be, it settles
its entity. -/
def Shape.pardon (shape : Shape S σ) : Shape S (σ × Nat) where
  signature := shape.signature
  invoke arguments data :=
    let outcome := shape.invoke arguments data.1
    { arguments := outcome.arguments
      data := (outcome.data, data.2 + 1)
      enqueued := outcome.enqueued
      verdict := if data.2 = place then .settled isActive else outcome.verdict }

/-- A system with all of its entry points in that form. -/
def System.pardon (system : System S σ) : System S (σ × Nat) where
  id := system.id
  after := system.after
  shapes := system.shapes.map (Shape.pardon place isActive)

/-- A line stands for the pardoned form of what it stood for. -/
theorem Plan.Line.shape?_pardon (line : Plan.Line) (systems : List (System S σ)) :
    line.shape? (systems.map (System.pardon place isActive)) =
      (line.shape? systems).map (Shape.pardon place isActive) := by
  unfold Plan.Line.shape?
  rw [List.getElem?_map]
  cases systems[line.system]? with
  | none => rfl
  | some system => exact List.getElem?_map

end

/-- A scene after a number of invocations, which is kept with the private data. -/
def Scene.counted (scene : Scene S σ) (count : Nat) : Scene S (σ × Nat) where
  store := scene.store
  context := scene.context
  data := (scene.data, count)
  ambient := scene.ambient

@[simp] theorem Scene.counted_store (scene : Scene S σ) (count : Nat) :
    (scene.counted count).store = scene.store := rfl

@[simp] theorem Scene.counted_ambient (scene : Scene S σ) (count : Nat) :
    (scene.counted count).ambient = scene.ambient := rfl

namespace Run

theorem exists_events_andThen {τ : Type} (run : Run S τ) (next : τ → Run S τ) :
    ∃ rest, (run.andThen next).events = run.events ++ rest := by
  cases hstop : run.stop with
  | some stop => exact ⟨[], by rw [andThen_of_stop hstop, List.append_nil]⟩
  | none => exact ⟨_, by rw [andThen_of_no_stop hstop]⟩

/-- How a run with a pardon goes beside the one without, where `count` invocations were made before
both. As long as the pardoned invocation does not come up they are the same, and when it does they
part with its verdict. -/
inductive Pardoned (place : Nat) (isActive : Bool) (count : Nat) (run : Run S (Scene S σ))
    (other : Run S (Scene S (σ × Nat))) : Prop
  | same (before : count + run.invocations.length ≤ place) (events : other.events = run.events)
      (stop : other.stop = run.stop)
      (state : other.state = run.state.counted (count + run.invocations.length))
  | parted {past later otherLater : List (Event S)} {line : Plan.Line} {entity : EntityId}
      {verdict : Verdict} (reached : count + (past.filterMap Event.invocation?).length = place)
      (events : run.events = past ++ .invoked line entity verdict :: later)
      (otherEvents : other.events = past ++ .invoked line entity (.settled isActive) :: otherLater)

namespace Pardoned

variable {place : Nat} {isActive : Bool} {count : Nat} {run : Run S (Scene S σ)}
  {other : Run S (Scene S (σ × Nat))}

theorem idle (isActive : Bool) (hcount : count ≤ place) (scene : Scene S σ) :
    Pardoned place isActive count { state := scene } { state := scene.counted count } :=
  .same hcount rfl rfl rfl

/-- What happened before, in both alike, takes its invocations from the count that is left up to the
pardoned one. -/
theorem prepend (past : List (Event S))
    (hrun : Pardoned place isActive (count + (past.filterMap Event.invocation?).length) run other) :
    Pardoned place isActive count { run with events := past ++ run.events }
      { other with events := past ++ other.events } := by
  have hlength : ({ run with events := past ++ run.events } : Run S _).invocations.length =
      (past.filterMap Event.invocation?).length + run.invocations.length := by
    rw [invocations, List.filterMap_append, List.length_append, invocations]
  cases hrun with
  | same before events stop state =>
    rw [Nat.add_assoc, ← hlength] at before state
    exact .same before (congrArg (past ++ ·) events) stop state
  | parted reached events otherEvents =>
    rw [Nat.add_assoc, ← List.length_append, ← List.filterMap_append] at reached
    rw [events, otherEvents, ← List.append_assoc, ← List.append_assoc]
    exact .parted reached rfl rfl

/-- Work that goes on beside its pardoned form does so until the two have parted. After that the
events before stay what they are. -/
theorem andThen (hrun : Pardoned place isActive count run other)
    {next : Scene S σ → Run S (Scene S σ)}
    {otherNext : Scene S (σ × Nat) → Run S (Scene S (σ × Nat))}
    (hnext : ∀ {made : Nat}, made ≤ place → ∀ scene,
      Pardoned place isActive made (next scene) (otherNext (scene.counted made))) :
    Pardoned place isActive count (run.andThen next) (other.andThen otherNext) := by
  cases hrun with
  | same before events stop state =>
    cases hstop : run.stop with
    | some reason =>
      rw [andThen_of_stop hstop, andThen_of_stop (stop.trans hstop)]
      exact .same before events stop state
    | none =>
      rw [andThen_of_no_stop hstop, andThen_of_no_stop (stop.trans hstop), state, events]
      exact prepend run.events (hnext before run.state)
  | parted reached events otherEvents =>
    obtain ⟨rest, hrest⟩ := run.exists_events_andThen next
    obtain ⟨otherRest, hotherRest⟩ := other.exists_events_andThen otherNext
    rw [events, List.append_assoc] at hrest
    rw [otherEvents, List.append_assoc] at hotherRest
    exact .parted reached hrest hotherRest

/-- The same work for one item after another goes beside its pardoned form. Each item begins with
the count that those before have left. -/
theorem forEach {ι : Type} {work : ι → Scene S σ → Run S (Scene S σ)}
    {otherWork : ι → Scene S (σ × Nat) → Run S (Scene S (σ × Nat))} {items : List ι}
    (hwork : ∀ item ∈ items, ∀ {made : Nat}, made ≤ place → ∀ scene,
      Pardoned place isActive made (work item scene) (otherWork item (scene.counted made)))
    (hcount : count ≤ place) (scene : Scene S σ) :
    Pardoned place isActive count (Run.forEach work items scene)
      (Run.forEach otherWork items (scene.counted count)) := by
  induction items generalizing count scene with
  | nil => exact idle isActive hcount scene
  | cons item items ih =>
    refine (hwork item List.mem_cons_self hcount scene).andThen fun hmade later => ?_
    exact ih (fun other hother => hwork other (List.mem_cons_of_mem item hother)) hmade later

/-- Where the run without the pardon ends with the invocation at the place, the run with it comes to
the same invocation in the same way. -/
theorem exists_events_eq {before : List (Event S)} {line : Plan.Line} {entity : EntityId}
    {verdict : Verdict} (hrun : Pardoned place isActive 0 run other)
    (hevents : run.events = before ++ [.invoked line entity verdict])
    (hplace : (before.filterMap Event.invocation?).length = place) :
    ∃ rest, other.events = before ++ .invoked line entity (.settled isActive) :: rest := by
  cases hrun with
  | same reached events stop state =>
    have hlength : run.invocations.length = place + 1 := by
      rw [Run.invocations, hevents, List.filterMap_append, List.length_append, hplace]
      rfl
    omega
  | @parted past later otherLater found foundEntity foundVerdict reached events otherEvents =>
    rw [hevents] at events
    rcases List.eq_nil_or_concat later with rfl | ⟨later, last, rfl⟩
    · obtain ⟨rfl, hinvoked⟩ := List.append_inj' events rfl
      cases hinvoked
      exact ⟨otherLater, otherEvents⟩
    · -- The run would go on behind its last invocation.
      rw [List.concat_eq_append, ← List.cons_append, ← List.append_assoc] at events
      obtain ⟨rfl, _⟩ := List.append_inj' events rfl
      have hinvoked : Event.invocation? (.invoked found foundEntity foundVerdict : Event S) =
          some (found, foundEntity, foundVerdict) := rfl
      rw [List.filterMap_append, List.length_append, List.filterMap_cons_some hinvoked,
        List.length_cons] at hplace
      omega

end Pardoned

end Run

namespace Engine

variable {place count : Nat} (isActive : Bool)

/-- The pardoned form of an entry point does what it does itself, but for the verdict, and adds one
to the count. -/
theorem invoke_pardon_of_bound (line : Plan.Line) {shape : Shape S σ} (entity : EntityId)
    {row : Row S} {scene : Scene S σ} {bound : Arguments S shape.signature}
    (hbound : Arguments.bind? row scene.ambient scene.context.view shape.signature = some bound) :
    let outcome := shape.invoke bound scene.data
    let next := absorb scene entity row outcome
    let verdict := if count = place then .settled isActive else outcome.verdict
    invoke line (shape.pardon place isActive) entity row (scene.counted count) =
      { state :=
          Scene.counted { next with context := next.context.heed entity verdict } (count + 1)
        events := opening line entity outcome.queued ++ [.invoked line entity verdict]
        stop := verdict.stop? line } := by
  have hother : Arguments.bind? row (scene.counted count).ambient
      (scene.counted count).context.view (shape.pardon place isActive).signature = some bound :=
    hbound
  exact invoke_of_bound line entity hother

/-- An invocation is the pardoned one, or it does the same with and without the pardon. -/
theorem pardoned_invoke (hcount : count ≤ place) (line : Plan.Line) (shape : Shape S σ)
    (entity : EntityId) (row : Row S) (scene : Scene S σ) :
    Run.Pardoned place isActive count (invoke line shape entity row scene)
      (invoke line (shape.pardon place isActive) entity row (scene.counted count)) := by
  cases hbound : Arguments.bind? row scene.ambient scene.context.view shape.signature with
  | none =>
    have hother : Arguments.bind? row (scene.counted count).ambient
        (scene.counted count).context.view (shape.pardon place isActive).signature = none := hbound
    rw [invoke_of_unbound line entity hbound, invoke_of_unbound line entity hother]
    exact .same hcount rfl rfl rfl
  | some bound =>
    let outcome := shape.invoke bound scene.data
    have hone := congrArg List.length (invocations_invoke_of_bound line entity hbound)
    rw [invoke_pardon_of_bound isActive line entity hbound]
    by_cases hplace : count = place
    · have hreached : count + ((opening line entity outcome.queued).filterMap
          Event.invocation?).length = place := by
        rw [filterMap_opening line entity _ rfl]
        simp [Event.invocation?, hplace]
      rw [if_pos hplace, invoke_of_bound line entity hbound]
      exact .parted hreached rfl rfl
    · rw [List.length_singleton] at hone
      rw [if_neg hplace]
      refine .same (by omega) ?_ ?_ ?_
      · rw [invoke_of_bound line entity hbound]
      · rw [invoke_of_bound line entity hbound]
      · rw [hone, invoke_of_bound line entity hbound]

theorem pardoned_visit (hcount : count ≤ place) (line : Plan.Line) (shape : Shape S σ)
    (inactive : InactiveHandling) (entity : EntityId) (scene : Scene S σ) :
    Run.Pardoned place isActive count (visit line shape inactive entity scene)
      (visit line (shape.pardon place isActive) inactive entity (scene.counted count)) := by
  have hidle := Run.Pardoned.idle isActive hcount scene
  unfold visit
  by_cases hpassed : inactive = .passBy ∧ scene.context.inactive.contains entity = true
  · have hother : inactive = .passBy ∧
        (scene.counted count).context.inactive.contains entity = true := hpassed
    rw [if_pos hpassed, if_pos hother]
    exact hidle
  · have hother : ¬(inactive = .passBy ∧
        (scene.counted count).context.inactive.contains entity = true) := hpassed
    rw [if_neg hpassed, if_neg hother]
    simp only [Scene.counted_store]
    cases scene.store.rows[entity]? with
    | none => exact hidle
    | some row => exact pardoned_invoke isActive hcount line shape entity row scene

/-- The turn of a line goes as without the pardon, up to the pardoned verdict. -/
theorem pardoned_runLine (hcount : count ≤ place) (systems : List (System S σ))
    (inactive : InactiveHandling) (line : Plan.Line) (scene : Scene S σ) :
    Run.Pardoned place isActive count (runLine systems inactive line scene)
      (runLine (systems.map (System.pardon place isActive)) inactive line
        (scene.counted count)) := by
  have hidle := Run.Pardoned.idle isActive hcount scene
  have hshape := line.shape?_pardon place isActive systems
  unfold Plan.Line.shape? at hshape
  simp only [runLine, Scene.counted_ambient, Scene.counted_store, hshape]
  split
  case isFalse => exact hidle
  case isTrue =>
    cases scene.store.bucket? line.key with
    | none => exact hidle
    | some bucket =>
      cases systems[line.system]?.bind (·.shapes[line.shape]?) with
      | none => exact hidle
      | some shape =>
        have hswept : Run.Pardoned place isActive count
            (Run.forEach (visit line shape inactive) bucket.toList scene)
            (Run.forEach (visit line (shape.pardon place isActive) inactive) bucket.toList
              (scene.counted count)) :=
          .forEach (fun entity _ _ hmade later =>
            pardoned_visit isActive hmade line shape inactive entity later) hcount scene
        exact hswept.prepend [.executing line bucket.size]

theorem pardoned_pass (hcount : count ≤ place) (systems : List (System S σ)) (plan : Plan)
    (inactive : InactiveHandling) (scene : Scene S σ) :
    Run.Pardoned place isActive count (pass systems plan inactive scene)
      (pass (systems.map (System.pardon place isActive)) plan inactive (scene.counted count)) :=
  Run.Pardoned.forEach (fun line _ _ hmade later =>
    pardoned_runLine isActive hmade systems inactive line later) hcount scene

theorem pardoned_drain {count : Nat} (hcount : count ≤ place) (systems : List (System S σ))
    (plan : Plan) (inactive : InactiveHandling) (limit : Nat) (scene : Scene S σ) :
    Run.Pardoned place isActive count (drain (pass systems plan inactive) limit scene)
      (drain (pass (systems.map (System.pardon place isActive)) plan inactive) limit
        (scene.counted count)) := by
  cases hqueue : scene.context.queue with
  | nil =>
    have hother : (scene.counted count).context.queue = [] := hqueue
    rw [drain_of_nil limit hqueue, drain_of_nil limit hother]
    exact .idle isActive hcount scene
  | cons state queue =>
    have hother : (scene.counted count).context.queue = state :: queue := hqueue
    cases limit with
    | zero =>
      rw [drain_zero_of_cons hqueue, drain_zero_of_cons hother]
      exact .same hcount rfl rfl rfl
    | succ limit =>
      let start : Scene S σ :=
        { scene with context := { scene.context with queue }, ambient := some state }
      have hpass := pardoned_pass isActive hcount systems plan inactive start
      rw [drain_succ_of_cons limit hqueue, drain_succ_of_cons limit hother]
      have hwhole := hpass.andThen fun hmade later =>
        pardoned_drain hmade systems plan inactive limit later
      exact hwhole.prepend start.passing

/-- The passes of an update go as without the pardon, up to the pardoned verdict. This is how two
updates can be compared that differ in one verdict only. -/
theorem pardoned_passes (place : Nat) (isActive : Bool) (systems : List (System S σ)) (plan : Plan)
    (inactive : InactiveHandling) (limit : Nat) (strategy : Strategy) (first : Scene S σ) :
    Run.Pardoned place isActive 0 (passes (pass systems plan inactive) limit strategy first)
      (passes (pass (systems.map (System.pardon place isActive)) plan inactive) limit strategy
        (first.counted 0)) := by
  have hpass := pardoned_pass isActive (Nat.zero_le place) systems plan inactive first
  cases strategy with
  | single => exact hpass
  | recursive =>
    exact hpass.andThen fun hmade later =>
      pardoned_drain isActive hmade systems plan inactive limit later

end Engine

end EntityWorld
