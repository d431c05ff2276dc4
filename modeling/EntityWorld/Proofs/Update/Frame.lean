import EntityWorld.Proofs.Signature
import EntityWorld.Proofs.Store.Layout
import EntityWorld.Update.Engine

namespace EntityWorld

variable {S : Schema} {σ : Type}

namespace Run

variable {τ ι : Type}

/-- What holds of the state before and is kept by the work that follows holds of the state after. -/
theorem andThen_induction (P : τ → Prop) {run : Run S τ} {next : τ → Run S τ}
    (hrun : P run.state) (hnext : ∀ state, P state → P (next state).state) :
    P (run.andThen next).state := by
  unfold andThen
  split
  · exact hrun
  · exact hnext run.state hrun

theorem forEach_induction (P : τ → Prop) {work : ι → τ → Run S τ}
    (hwork : ∀ item state, P state → P (work item state).state) (items : List ι) {state : τ}
    (hstate : P state) : P (forEach work items state).state := by
  induction items generalizing state with
  | nil => exact hstate
  | cons item items ih => exact andThen_induction P (hwork item state hstate) fun _ => ih

end Run

/-- Writing arguments back keeps the types in a row and their order, so it never moves an entity in
the lists. -/
@[simp] theorem Arguments.types_writeRow (signature : Signature) (arguments : Arguments S signature)
    (row : Row S) : (Arguments.writeRow signature arguments row).types = row.types := by
  induction signature generalizing row with
  | nil => rfl
  | cons param signature ih =>
    obtain ⟨slot, rest⟩ := arguments
    match param with
    | .component type .write => exact (ih rest _).trans (Row.types_replace row ⟨type, slot⟩)
    | .component type .read => exact ih rest row
    | .context => exact ih rest row
    | .state type access => exact ih rest row

/-- The type of the ambient state, if there is one. -/
def Scene.ambientType? (scene : Scene S σ) : Option TypeId :=
  scene.ambient.map Sigma.fst

/-- Two scenes that differ at most in values, in the context and in private data. Whatever systems
do in a pass, they write to components that are there and to the ambient state that is there. -/
structure Scene.SameFrame (before after : Scene S σ) : Prop where
  layout : before.store.SameLayout after.store
  ambientType? : after.ambientType? = before.ambientType?

theorem Scene.SameFrame.refl (scene : Scene S σ) : scene.SameFrame scene :=
  ⟨.refl _, rfl⟩

theorem Scene.SameFrame.trans {first second third : Scene S σ} (hfirst : first.SameFrame second)
    (hsecond : second.SameFrame third) : first.SameFrame third :=
  ⟨hfirst.layout.trans hsecond.layout, hsecond.ambientType?.trans hfirst.ambientType?⟩

/-- Writing arguments back keeps the type of the ambient state if no other type of it is asked
for. -/
theorem Arguments.map_fst_writeAmbient {type? : Option TypeId} {signature : Signature}
    (hstate : ∀ {type : TypeId} {access : Access}, Param.state type access ∈ signature →
      type? = some type) (arguments : Arguments S signature) {held : Option (Ambient S)}
    (hheld : held.map Sigma.fst = type?) :
    (writeAmbient signature arguments held).map Sigma.fst = type? := by
  induction signature generalizing held with
  | nil => exact hheld
  | cons param signature ih =>
    have hrest {type : TypeId} {access : Access} (hmem : .state type access ∈ signature) :
        type? = some type := hstate (List.mem_cons_of_mem param hmem)
    obtain ⟨slot, rest⟩ := arguments
    match param with
    | .component type access => exact ih hrest rest hheld
    | .context => exact ih hrest rest hheld
    | .state type .read => exact ih hrest rest hheld
    | .state type .write => exact ih hrest rest (hstate List.mem_cons_self).symm

namespace Engine

/-- An invocation writes to the row of its entity and to the ambient state, and keeps the types of
both. -/
theorem sameFrame_invoke (line : Plan.Line) (shape : Shape S σ) {entity : EntityId} {row : Row S}
    {scene : Scene S σ} (hrow : scene.store.rows[entity]? = some row) :
    scene.SameFrame (invoke line shape entity row scene).state := by
  unfold invoke
  split
  case h_1 => exact .refl _
  case h_2 bound hbound =>
    let outcome := shape.invoke bound scene.data
    have hlayout : scene.store.SameLayout (absorb scene entity row outcome).store :=
      Store.sameLayout_insert hrow (Arguments.types_writeRow _ outcome.arguments row)
    have hambient : (absorb scene entity row outcome).ambientType? = scene.ambientType? := by
      refine Arguments.map_fst_writeAmbient (fun {type access} hmem => ?_) outcome.arguments rfl
      have hfound := Arguments.isSome_bind?.mp (Option.isSome_of_eq_some hbound) _ hmem
      exact Param.isSome_bind?_state.mp hfound
    simp only
    split <;> exact ⟨hlayout, hambient⟩

theorem sameFrame_visit (line : Plan.Line) (shape : Shape S σ) (inactive : InactiveHandling)
    (entity : EntityId) (scene : Scene S σ) :
    scene.SameFrame (visit line shape inactive entity scene).state := by
  unfold visit
  split
  · exact .refl _
  · split
    · exact .refl _
    · exact sameFrame_invoke line shape ‹_›

theorem sameFrame_runLine (systems : List (System S σ)) (inactive : InactiveHandling)
    (line : Plan.Line) (scene : Scene S σ) :
    scene.SameFrame (runLine systems inactive line scene).state := by
  unfold runLine
  split
  · split
    case h_1 bucket shape _ _ =>
      exact Run.forEach_induction scene.SameFrame
        (fun entity state hsame => hsame.trans (sameFrame_visit line shape inactive entity state))
        bucket.toList (.refl scene)
    case h_2 => exact .refl _
  · exact .refl _

theorem sameFrame_pass (systems : List (System S σ)) (plan : Plan) (inactive : InactiveHandling)
    (scene : Scene S σ) : scene.SameFrame (pass systems plan inactive scene).state :=
  Run.forEach_induction scene.SameFrame
    (fun line state hsame => hsame.trans (sameFrame_runLine systems inactive line state)) plan
    (.refl scene)

/-- Passes that keep the layout of the store make updates that do. The ambient state changes from
pass to pass, so there is no more than the layout left to keep. -/
theorem sameLayout_drain {pass : Scene S σ → Run S (Scene S σ)}
    (hpass : ∀ scene : Scene S σ, scene.store.SameLayout (pass scene).state.store) (limit : Nat)
    (scene : Scene S σ) : scene.store.SameLayout (drain pass limit scene).state.store := by
  induction limit generalizing scene with
  | zero =>
    unfold drain
    split <;> exact .refl _
  | succ limit ih =>
    unfold drain
    split
    case h_1 => exact .refl _
    case h_2 state context _ =>
      have hfirst := hpass { scene with context, ambient := some state }
      exact Run.andThen_induction (fun state : Scene S σ => scene.store.SameLayout state.store)
        hfirst fun state hsame => hsame.trans (ih state)

theorem sameLayout_updateBy {pass : Scene S σ → Run S (Scene S σ)}
    (hpass : ∀ scene : Scene S σ, scene.store.SameLayout (pass scene).state.store) (limit : Nat)
    (strategy : Strategy) (inactive : InactiveHandling) (scene : Scene S σ) :
    scene.store.SameLayout (updateBy pass limit strategy inactive scene).state.store := by
  have hfirst := hpass { scene with context := scene.context.reset }
  refine Run.andThen_induction (fun state : Scene S σ => scene.store.SameLayout state.store) ?_
    fun state hsame => hsame
  split
  · exact Run.andThen_induction (fun state : Scene S σ => scene.store.SameLayout state.store)
      hfirst fun state hsame => hsame.trans (sameLayout_drain hpass limit state)
  · exact hfirst

/-- An update keeps the layout of the store: it writes values and nothing else. So no entity comes,
goes or moves while systems run. -/
theorem sameLayout_update (systems : List (System S σ)) (plan : Plan) (limit : Nat)
    (strategy : Strategy) (inactive : InactiveHandling) (scene : Scene S σ) :
    scene.store.SameLayout (update systems plan limit strategy inactive scene).state.store :=
  sameLayout_updateBy (fun scene => (sameFrame_pass systems plan inactive scene).layout) limit
    strategy inactive scene

end Engine

end EntityWorld
