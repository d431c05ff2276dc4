import EntityWorld.Proofs.Store.Deeds
import EntityWorld.Proofs.Update.Path

namespace EntityWorld

variable {S : Schema} {σ τ ι δ : Type}

/-- The components that are declared as written, in the order of their parameters. -/
def Arguments.written : (signature : Signature) → Arguments S signature → List (Component S)
  | [], _ => []
  | .component type .write :: signature, (record, rest) => ⟨type, record⟩ :: written signature rest
  | _ :: signature, (_, rest) => written signature rest

/-- Writing arguments back to a row replaces the written components one after another. -/
theorem Arguments.writeRow_eq_foldl (signature : Signature) (arguments : Arguments S signature)
    (row : Row S) :
    writeRow signature arguments row = (written signature arguments).foldl Row.replace row := by
  induction signature generalizing row with
  | nil => rfl
  | cons param signature ih =>
    obtain ⟨slot, rest⟩ := arguments
    match param with
    | .component type .write => exact ih rest (row.replace ⟨type, slot⟩)
    | .component type .read => exact ih rest row
    | .context => exact ih rest row
    | .state type access => exact ih rest row

/-- What is written is of the types that are asked for. -/
theorem Arguments.type_mem_of_mem_written {signature : Signature}
    {arguments : Arguments S signature} {component : Component S}
    (hmem : component ∈ written signature arguments) :
    Param.component component.type .write ∈ signature := by
  induction signature with
  | nil => cases hmem
  | cons param signature ih =>
    obtain ⟨slot, rest⟩ := arguments
    match param with
    | .component type .write =>
      rcases List.mem_cons.mp hmem with rfl | hrest
      · exact List.mem_cons_self
      · exact List.mem_cons_of_mem _ (ih hrest)
    | .component type .read => exact List.mem_cons_of_mem _ (ih hmem)
    | .context => exact List.mem_cons_of_mem _ (ih hmem)
    | .state type access => exact List.mem_cons_of_mem _ (ih hmem)

namespace Run

/-- What is done by work and by the work that goes on from it, unless it has stopped. Runs are put
together in a few ways, and their deeds are put together in the same ways. -/
def deedsThen (run : Run S τ) (past : List δ) (next : τ → List δ) : List δ :=
  match run.stop with
  | some _ => past
  | none => past ++ next run.state

/-- What is done by the same work for one item after another, up to the first stop. -/
def deedsForEach (work : ι → τ → Run S τ) (deeds : ι → τ → List δ) : List ι → τ → List δ
  | [], _ => []
  | item :: items, state =>
    (work item state).deedsThen (deeds item state) (deedsForEach work deeds items)

end Run

namespace Engine

/-- What an invocation on an entity stores: what its entry point leaves in the arguments that are
declared as written, one after another. Without all of its arguments it stores nothing. -/
def invokeDeeds (shape : Shape S σ) (entity : EntityId) (row : Row S) (scene : Scene S σ) :
    List (Deed S) :=
  match Arguments.bind? row scene.ambient scene.context.view shape.signature with
  | none => []
  | some arguments =>
    let outcome := shape.invoke arguments scene.data
    (Arguments.written shape.signature outcome.arguments).map (.stored entity)

/-- What is done by visiting an entity: nothing if it is passed by, else what the invocation
stores. -/
def visitDeeds (shape : Shape S σ) (inactive : InactiveHandling) (entity : EntityId)
    (scene : Scene S σ) : List (Deed S) :=
  if inactive = .passBy ∧ scene.context.inactive.contains entity then
    []
  else
    match scene.store.rows[entity]? with
    | none => []
    | some row => invokeDeeds shape entity row scene

/-- What is done by the turn of a line, entity by entity. -/
def runLineDeeds (systems : List (System S σ)) (inactive : InactiveHandling) (line : Plan.Line)
    (scene : Scene S σ) : List (Deed S) :=
  if line.canMatch && line.state?.all (scene.ambient.map Sigma.fst == some ·) then
    match scene.store.bucket? line.key, systems[line.system]?.bind (·.shapes[line.shape]?) with
    | some bucket, some shape =>
      Run.deedsForEach (visit line shape inactive) (visitDeeds shape inactive) bucket.toList scene
    | _, _ => []
  else
    []

/-- What is done by a pass, line by line. -/
def passDeeds (systems : List (System S σ)) (plan : Plan) (inactive : InactiveHandling)
    (scene : Scene S σ) : List (Deed S) :=
  Run.deedsForEach (runLine systems inactive) (runLineDeeds systems inactive) plan scene

/-- What is done by a pass for each queued state, until none is left. -/
def drainDeeds (pass : Scene S σ → Run S (Scene S σ)) (deeds : Scene S σ → List (Deed S)) :
    Nat → Scene S σ → List (Deed S)
  | limit, scene =>
    match scene.context.dequeue? with
    | none => []
    | some (state, context) =>
      match limit with
      | 0 => []
      | limit + 1 =>
        let start := { scene with context, ambient := some state }
        (pass start).deedsThen (deeds start) (drainDeeds pass deeds limit)

/-- What is done by an update. It consists of passes only, so its beginning and its end do
nothing. -/
def updateDeeds (systems : List (System S σ)) (plan : Plan) (limit : Nat) (strategy : Strategy)
    (inactive : InactiveHandling) (scene : Scene S σ) : List (Deed S) :=
  let start := { scene with context := scene.context.reset }
  let deeds := passDeeds systems plan inactive
  if strategy = .recursive then
    (pass systems plan inactive start).deedsThen (deeds start)
      (drainDeeds (pass systems plan inactive) deeds limit)
  else
    deeds start

/-- Work that goes on from a run has done what the run has done and then its own. -/
theorem follows_andThen {first : Store S} {run : Run S (Scene S σ)} {past : List (Deed S)}
    {work : Scene S σ → Run S (Scene S σ)} {deeds : Scene S σ → List (Deed S)}
    (hrun : first.Follows past run.state.store)
    (hwork : ∀ scene : Scene S σ, scene.store.Follows (deeds scene) (work scene).state.store) :
    first.Follows (run.deedsThen past deeds) (run.andThen work).state.store := by
  unfold Run.deedsThen Run.andThen
  cases run.stop with
  | some stop => exact hrun
  | none => exact hrun.trans (hwork run.state)

/-- The same work for one item after another has done what it does for each. -/
theorem follows_forEach {work : ι → Scene S σ → Run S (Scene S σ)}
    {deeds : ι → Scene S σ → List (Deed S)}
    (hwork : ∀ (item : ι) (scene : Scene S σ),
      scene.store.Follows (deeds item scene) (work item scene).state.store)
    (items : List ι) (scene : Scene S σ) :
    scene.store.Follows (Run.deedsForEach work deeds items scene)
      (Run.forEach work items scene).state.store := by
  induction items generalizing scene with
  | nil => exact .of_rows fun _ => rfl
  | cons item items ih => exact follows_andThen (hwork item scene) ih

/-- Storing components of types that an entity has, one after another, leaves the latest of each
type. The row keeps its types on the way, which is what the induction carries along. -/
theorem follows_written {store after : Store S} {entity : EntityId} {row : Row S}
    (hrow : store.rows[entity]? = some row) {written : List (Component S)}
    (howned : ∀ component ∈ written, component.type ∈ row.types)
    (hrows : ∀ other, after.rows[other]? =
      if entity = other then some (written.foldl Row.replace row) else store.rows[other]?) :
    store.Follows (written.map (.stored entity)) after := by
  induction written generalizing store row with
  | nil =>
    refine .of_rows fun other => ?_
    rw [hrows]
    split
    case isTrue heq => rw [← heq, hrow, List.foldl_nil]
    case isFalse => rfl
  | cons component written ih =>
    -- The row keeps its types, so the components that remain still replace ones that are there.
    let middle : Store S :=
      { store with rows := store.rows.insert entity (row.replace component) }
    have hmiddle : store.Stores entity component middle :=
      ⟨row, hrow, howned component List.mem_cons_self, rfl⟩
    have hinserted (other : EntityId) : middle.rows[other]? =
        if entity = other then some (row.replace component) else store.rows[other]? :=
      Store.getElem?_rows_insert ..
    refine hmiddle.follows.trans (ih ((hinserted entity).trans (if_pos rfl)) ?_ fun other => ?_)
    · intro other hother
      rw [Row.types_replace]
      exact howned other (List.mem_cons_of_mem component hother)
    · rw [hrows, hinserted]
      split <;> rfl

/-- The store that an invocation leaves has what its entry point stored, also if it fails or panics
afterwards. -/
theorem follows_invoke (line : Plan.Line) (shape : Shape S σ) {entity : EntityId} {row : Row S}
    {scene : Scene S σ} (hrow : scene.store.rows[entity]? = some row) :
    scene.store.Follows (invokeDeeds shape entity row scene)
      (invoke line shape entity row scene).state.store := by
  rw [invokeDeeds]
  cases hbound : Arguments.bind? row scene.ambient scene.context.view shape.signature with
  | none =>
    rw [invoke_of_unbound line entity hbound]
    exact .of_rows fun _ => rfl
  | some bound =>
    rw [invoke_of_bound line entity hbound]
    refine follows_written hrow (fun component hcomponent => ?_) fun other => ?_
    · have hasked := Arguments.type_mem_of_mem_written hcomponent
      have hfound := Arguments.isSome_bind?.mp (Option.isSome_of_eq_some hbound) _ hasked
      exact Row.find?_isSome.mp hfound
    · rw [absorb, Store.getElem?_rows_insert, Arguments.writeRow_eq_foldl]

theorem follows_visit (line : Plan.Line) (shape : Shape S σ) (inactive : InactiveHandling)
    (entity : EntityId) (scene : Scene S σ) :
    scene.store.Follows (visitDeeds shape inactive entity scene)
      (visit line shape inactive entity scene).state.store := by
  unfold visitDeeds visit
  split
  · exact .of_rows fun _ => rfl
  · cases hrow : scene.store.rows[entity]? with
    | none => exact .of_rows fun _ => rfl
    | some row => exact follows_invoke line shape hrow

theorem follows_runLine (systems : List (System S σ)) (inactive : InactiveHandling)
    (line : Plan.Line) (scene : Scene S σ) :
    scene.store.Follows (runLineDeeds systems inactive line scene)
      (runLine systems inactive line scene).state.store := by
  unfold runLineDeeds runLine
  split
  · cases scene.store.bucket? line.key with
    | none => exact .of_rows fun _ => rfl
    | some bucket =>
      cases systems[line.system]?.bind (·.shapes[line.shape]?) with
      | none => exact .of_rows fun _ => rfl
      | some shape =>
        exact follows_forEach (follows_visit line shape inactive) bucket.toList scene
  · exact .of_rows fun _ => rfl

theorem follows_pass (systems : List (System S σ)) (plan : Plan) (inactive : InactiveHandling)
    (scene : Scene S σ) :
    scene.store.Follows (passDeeds systems plan inactive scene)
      (pass systems plan inactive scene).state.store :=
  follows_forEach (follows_runLine systems inactive) plan scene

theorem follows_drain {pass : Scene S σ → Run S (Scene S σ)}
    {deeds : Scene S σ → List (Deed S)}
    (hpass : ∀ scene : Scene S σ, scene.store.Follows (deeds scene) (pass scene).state.store)
    (limit : Nat) (scene : Scene S σ) :
    scene.store.Follows (drainDeeds pass deeds limit scene)
      (drain pass limit scene).state.store := by
  induction limit generalizing scene with
  | zero =>
    unfold drainDeeds drain
    cases scene.context.dequeue? <;> exact .of_rows fun _ => rfl
  | succ limit ih =>
    unfold drainDeeds drain
    cases scene.context.dequeue? with
    | none => exact .of_rows fun _ => rfl
    | some waiting =>
      let start := { scene with context := waiting.2, ambient := some waiting.1 }
      exact follows_andThen (hpass start) ih

/-- The store that an update leaves has what its deeds say, also if the update stops early. The
beginning and the end of an update store nothing. -/
theorem follows_update (systems : List (System S σ)) (plan : Plan) (limit : Nat)
    (strategy : Strategy) (inactive : InactiveHandling) (scene : Scene S σ) :
    scene.store.Follows (updateDeeds systems plan limit strategy inactive scene)
      (update systems plan limit strategy inactive scene).state.store := by
  let start : Scene S σ := { scene with context := scene.context.reset }
  have hfirst := follows_pass systems plan inactive start
  rw [update, updateBy_eq]
  unfold updateDeeds passes
  split
  · exact follows_andThen hfirst (follows_drain (follows_pass systems plan inactive) limit)
  · exact hfirst

end Engine

end EntityWorld
