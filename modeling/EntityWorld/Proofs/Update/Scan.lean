import EntityWorld.Proofs.Plan
import EntityWorld.Proofs.Store.Listing
import EntityWorld.Proofs.Update.Invoke

namespace EntityWorld

variable {S : Schema} {σ : Type}

theorem Shape.Owned.of_sameLayout {shape : Shape S σ} {before after : Store S}
    (hsame : before.SameLayout after) {entity : EntityId}
    (hafter : ∃ row, after.rows[entity]? = some row ∧ shape.Owned row) :
    ∃ row, before.rows[entity]? = some row ∧ shape.Owned row := by
  obtain ⟨row, hrow, howned⟩ := hafter
  obtain ⟨old, hold, htypes⟩ := hsame.exists_row hrow
  refine ⟨old, hold, fun type htype => ?_⟩
  rw [Row.contains_iff, htypes, ← Row.contains_iff]
  exact howned type htype

/-- An invocation by a line of a plan, on an entity of a store that has all components asked for. -/
def Invocation.OnOwner (systems : List (System S σ)) (plan : Plan) (store : Store S)
    (call : Invocation) : Prop :=
  call.1 ∈ plan ∧ ∃ shape, call.1.shape? systems = some shape ∧
    ∃ row, store.rows[call.2.1]? = some row ∧ shape.Owned row

namespace Scan

/-- Runs an entry point on an entity that has all it asks for, unless the entity is inactive and to
be passed by. No key is looked at, so a scan shows what the passes over the lists have to do. -/
def visit (line : Plan.Line) (shape : Shape S σ) (inactive : InactiveHandling)
    (entity : EntityId) (scene : Scene S σ) : Run S (Scene S σ) :=
  match scene.store.rows[entity]? with
  | none => { state := scene }
  | some row =>
    if inactive = .passBy ∧ scene.context.inactive.contains entity then { state := scene }
    else if shape.Owned row then Engine.invoke line shape entity row scene
    else { state := scene }

/-- Goes through a roster with the entry point of a line, if the entry point asks for components,
and for no other ambient state than there is. -/
def runLine (systems : List (System S σ)) (inactive : InactiveHandling)
    (roster : Plan.Line → List EntityId) (line : Plan.Line) (scene : Scene S σ) :
    Run S (Scene S σ) :=
  match line.shape? systems with
  | none => { state := scene }
  | some shape =>
    if shape.signature.types ≠ [] ∧
        shape.signature.stateType?.all (scene.ambientType? == some ·) = true then
      Run.forEach (visit line shape inactive) (roster line) scene
    else { state := scene }

/-- Goes through the lines of a plan one after another, each with its own roster. -/
def pass (systems : List (System S σ)) (plan : Plan) (inactive : InactiveHandling)
    (roster : Plan.Line → List EntityId) (scene : Scene S σ) : Run S (Scene S σ) :=
  Run.forEach (runLine systems inactive roster) plan scene

/-- The roster of a line that the lists under the keys stand for: the entities of an order, each as
often as its components make up the key of the line. -/
def listed (store : Store S) (order : List EntityId) (line : Plan.Line) : List EntityId :=
  if line.key.isIdentity then [] else store.listing order line.key

theorem sameFrame_visit (line : Plan.Line) (shape : Shape S σ) (inactive : InactiveHandling)
    (entity : EntityId) (scene : Scene S σ) :
    scene.SameFrame (visit line shape inactive entity scene).state := by
  unfold visit
  split
  · exact .refl scene
  · split
    · exact .refl scene
    · split
      · exact Engine.sameFrame_invoke line shape ‹_›
      · exact .refl scene

/-- An entity that lacks a component asked for is passed over, as if it were not on the roster. -/
theorem visit_of_not_owned {line : Plan.Line} {shape : Shape S σ} {inactive : InactiveHandling}
    {entity : EntityId} {scene : Scene S σ}
    (hlacks : ∀ row, scene.store.rows[entity]? = some row → ¬shape.Owned row) :
    visit line shape inactive entity scene = { state := scene } := by
  unfold visit
  split
  case h_1 => rfl
  case h_2 row hrow => rw [if_neg (hlacks row hrow), ite_self]

theorem runLine_eq {systems : List (System S σ)} {line : Plan.Line} {shape : Shape S σ}
    (hshape : line.shape? systems = some shape) (inactive : InactiveHandling)
    (roster : Plan.Line → List EntityId) (scene : Scene S σ) :
    runLine systems inactive roster line scene =
      if shape.signature.types ≠ [] ∧
          shape.signature.stateType?.all (scene.ambientType? == some ·) = true then
        Run.forEach (visit line shape inactive) (roster line) scene
      else { state := scene } := by
  rw [runLine, hshape]

end Scan

namespace Engine

/-- On an owner an entry point does run, in a pass whose ambient state is of the type that it asks
for. -/
theorem exists_invocations_invoke (line : Plan.Line) {shape : Shape S σ}
    (hshape : shape.signature.Acceptable) (entity : EntityId) {row : Row S}
    (howned : shape.Owned row) {scene : Scene S σ}
    (hambient : shape.signature.stateType?.all (scene.ambientType? == some ·) = true) :
    ∃ verdict, (invoke line shape entity row scene).invocations = [(line, entity, verdict)] := by
  have hsome := @Shape.isSome_bind? S σ shape hshape row howned scene.ambient scene.context.view
    hambient
  obtain ⟨bound, hbound⟩ := Option.isSome_iff_exists.mp hsome
  exact ⟨_, invocations_invoke_of_bound line entity hbound⟩

/-- Without a component that it asks for an entry point does nothing, although it is recorded that
it was looked at. -/
theorem agrees_invoke_of_not_owned (line : Plan.Line) {shape : Shape S σ} (entity : EntityId)
    {row : Row S} (hlacks : ¬shape.Owned row) (scene : Scene S σ) :
    (invoke line shape entity row scene).Agrees { state := scene } := by
  cases hbound : Arguments.bind? row scene.ambient scene.context.view shape.signature with
  | none =>
    rw [invoke_of_unbound line entity hbound]
    exact ⟨rfl, rfl, rfl⟩
  | some bound => exact absurd (Shape.owned_of_bind? (Option.isSome_of_eq_some hbound)) hlacks

/-- Visiting an entity does what a scan does there, whether or not its key led to the entity by
accident. -/
theorem agrees_visit (line : Plan.Line) (shape : Shape S σ) (inactive : InactiveHandling)
    (entity : EntityId) (scene : Scene S σ) :
    (visit line shape inactive entity scene).Agrees
      (Scan.visit line shape inactive entity scene) := by
  unfold visit Scan.visit
  cases scene.store.rows[entity]? with
  | none =>
    split
    · exact .refl _
    · exact .refl _
  | some row =>
    simp only
    split
    · exact .refl _
    · split
      · exact .refl _
      · exact agrees_invoke_of_not_owned line entity ‹_› scene

/-- Only entities that have all components asked for are ever run on, whatever led to them. -/
theorem owned_of_mem_invocations_visit {line : Plan.Line} {shape : Shape S σ}
    {inactive : InactiveHandling} {entity : EntityId} {scene : Scene S σ} {call : Invocation}
    (hcall : call ∈ (visit line shape inactive entity scene).invocations) :
    call.1 = line ∧ call.2.1 = entity ∧
      ∃ row, scene.store.rows[entity]? = some row ∧ shape.Owned row := by
  unfold visit at hcall
  split at hcall
  · cases hcall
  · split at hcall
    case h_1 => cases hcall
    case h_2 row hrow =>
      cases hbound : Arguments.bind? row scene.ambient scene.context.view shape.signature with
      | none =>
        rw [invoke_of_unbound line entity hbound] at hcall
        cases hcall
      | some bound =>
        rw [invocations_invoke_of_bound line entity hbound] at hcall
        obtain rfl := List.mem_singleton.mp hcall
        have howned := Shape.owned_of_bind? (Option.isSome_of_eq_some hbound)
        exact ⟨rfl, rfl, row, hrow, howned⟩

/-- A shape that asks for no component has the identity as its key, so a line with another key asks
for some. -/
theorem types_ne_nil {line : Plan.Line} {shape : Shape S σ} {seed : UInt32}
    (hline : line.Describes shape seed) (hkey : ¬line.key.isIdentity = true) :
    shape.signature.types ≠ [] := by
  intro hnil
  apply hkey
  rw [Key.isIdentity_iff, hline.key, hnil]
  rfl

/-- A line can match anything unless its key is the identity. That it has parameters follows, since
a key of no names is the identity. -/
theorem canMatch_iff {line : Plan.Line} {shape : Shape S σ} {seed : UInt32}
    (hline : line.Describes shape seed) : line.canMatch = true ↔ ¬line.key.isIdentity = true := by
  rw [Plan.Line.canMatch, Bool.and_eq_true, decide_eq_true_iff, Bool.not_eq_true',
    Bool.not_eq_true, and_iff_right_iff_imp]
  intro hkey
  rw [hline.params]
  refine List.length_pos_iff.mpr fun hnil => types_ne_nil hline (by simp [hkey]) ?_
  rw [hnil]
  rfl

/-- A line of a plan does what a scan of its roster does, in which the entities stand as often as
the list under its key has them. -/
theorem agrees_runLine {systems : List (System S σ)} {store : Store S} {order : List EntityId}
    (hindexed : store.Indexed order) {line : Plan.Line} {shape : Shape S σ}
    (hshape : line.shape? systems = some shape) {seed : UInt32}
    (hline : line.Describes shape seed) (inactive : InactiveHandling) {scene : Scene S σ}
    (hscene : store.SameLayout scene.store) :
    (runLine systems inactive line scene).Agrees
      (Scan.runLine systems inactive (Scan.listed store order) line scene) := by
  have hstate : line.state?.all (scene.ambient.map Sigma.fst == some ·) =
      shape.signature.stateType?.all (scene.ambientType? == some ·) := by
    rw [hline.state]
    rfl
  have hbucket : scene.store.bucket? line.key = Store.kept (store.listing order line.key) := by
    rw [Store.bucket?, hscene.buckets]
    exact hindexed.buckets line.key
  rw [Scan.runLine_eq hshape, runLine, hstate, hbucket, show systems[line.system]?.bind
    (·.shapes[line.shape]?) = some shape from hshape]
  by_cases hkey : line.key.isIdentity = true
  · have hidle : Scan.listed store order line = [] := if_pos hkey
    have hnot : ¬line.canMatch = true := fun hmatch => (canMatch_iff hline).mp hmatch hkey
    rw [if_neg (by simp [hnot]), hidle]
    split <;> exact .refl _
  · have hroster : Scan.listed store order line = store.listing order line.key := if_neg hkey
    have hmatch := (canMatch_iff hline).mpr hkey
    rw [hroster, hmatch, Bool.true_and]
    simp only [types_ne_nil hline hkey, ne_eq, not_false_eq_true, true_and]
    split
    case isFalse => exact .refl _
    case isTrue =>
      have hsweep : (Run.forEach (visit line shape inactive) (store.listing order line.key)
          scene).Agrees
          (Run.forEach (Scan.visit line shape inactive) (store.listing order line.key) scene) :=
        Run.agrees_forEach (fun _ => True) (fun _ _ _ => trivial)
          (fun entity _ state _ => agrees_visit line shape inactive entity state) trivial
      by_cases hnil : store.listing order line.key = []
      · rw [hnil]
        exact .refl _
      · rw [Store.kept, if_neg hnil]
        exact ⟨hsweep.state, hsweep.stop, hsweep.invocations⟩

/-- A pass over a plan for acceptable systems does what a scan of its rosters does. Lines agree one
by one, and no line changes what the rosters depend on. -/
theorem agrees_pass {systems : List (System S σ)} {plan : Plan} {store : Store S}
    {order : List EntityId} (hindexed : store.Indexed order) {seed : UInt32}
    (hchecked : ∀ system ∈ systems, system.check = .ok ())
    (hplan : Plan.build systems seed = .ok plan) (inactive : InactiveHandling) {scene : Scene S σ}
    (hscene : store.SameLayout scene.store) :
    (pass systems plan inactive scene).Agrees
      (Scan.pass systems plan inactive (Scan.listed store order) scene) := by
  refine Run.agrees_forEach (fun state : Scene S σ => store.SameLayout state.store)
    (fun line state hsame => hsame.trans (sameFrame_runLine systems inactive line state).layout)
    (fun line hline state hsame => ?_) hscene
  obtain ⟨shape, hshape, _, hdescribes⟩ := Plan.exists_shape_of_mem_build hchecked hplan hline
  exact agrees_runLine hindexed hshape hdescribes inactive hsame

/-- Whatever the keys are, an entry point only ever runs on entities that have all components it
asks for. -/
theorem onOwner_of_mem_invocations_pass {systems : List (System S σ)} {plan : Plan}
    {inactive : InactiveHandling} {scene : Scene S σ} :
    ∀ call ∈ (pass systems plan inactive scene).invocations,
      Invocation.OnOwner systems plan scene.store call := by
  refine Run.forall_invocations_forEach scene.SameFrame _
    (fun line state hsame => hsame.trans (sameFrame_runLine systems inactive line state))
    (fun line hline state hsame call hcall => ?_) (.refl scene)
  unfold runLine at hcall
  split at hcall
  case isFalse => cases hcall
  case isTrue =>
    split at hcall
    case h_2 => cases hcall
    case h_1 bucket shape _ hshape =>
      refine Run.forall_invocations_forEach scene.SameFrame
        (Invocation.OnOwner systems plan scene.store)
        (fun entity state hsame => hsame.trans (sameFrame_visit line shape inactive entity state))
        (fun entity _ later hlater call hvisit => ?_) hsame call hcall
      obtain ⟨rfl, rfl, hrow⟩ := owned_of_mem_invocations_visit hvisit
      exact ⟨hline, shape, hshape, Shape.Owned.of_sameLayout hlater.layout hrow⟩

end Engine

end EntityWorld
