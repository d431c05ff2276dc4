import EntityWorld.Proofs.Update.Path
import EntityWorld.Proofs.Update.Rulings

namespace EntityWorld

variable {S : Schema} {σ : Type}

namespace Context

/-- The set of the entities on a side. -/
def side (context : Context S) : Bool → EntitySet
  | true => context.active
  | false => context.inactive

/-- Both sets have an index that fits their slots. -/
def Valid (context : Context S) : Prop :=
  ∀ side, (context.side side).Valid

section

variable {P : EntitySet → Prop} {context : Context S}

/-- What sets keep when entities come in and leave is true of both sets of an empty context, and
what happens to a context leaves it true of both. -/
theorem forall_side_empty (hkept : EntitySet.Kept P) (side : Bool) :
    P ((empty : Context S).side side) := by
  cases side <;> exact hkept.empty

theorem forall_side_reset (hkept : EntitySet.Kept P) (hcontext : ∀ side, P (context.side side))
    (side : Bool) : P (context.reset.side side) := by
  cases side with
  | false => exact hcontext false
  | true => exact hkept.empty

theorem forall_side_forget (hkept : EntitySet.Kept P) (hcontext : ∀ side, P (context.side side))
    (entity : EntityId) (side : Bool) : P ((context.forget entity).side side) := by
  cases side with
  | false => exact hkept.remove entity (hcontext false)
  | true => exact hkept.remove entity (hcontext true)

theorem forall_side_settle (hkept : EntitySet.Kept P) (hcontext : ∀ side, P (context.side side))
    (entity : EntityId) (isActive side : Bool) : P ((context.settle entity isActive).side side) := by
  cases isActive with
  | false =>
    cases side with
    | false => exact hkept.insert entity (hcontext false)
    | true => exact hkept.remove entity (hcontext true)
  | true =>
    cases side with
    | false => exact hkept.remove entity (hcontext false)
    | true => exact hkept.insert entity (hcontext true)

end

theorem Valid.reset {context : Context S} (hcontext : context.Valid) : context.reset.Valid :=
  forall_side_reset EntitySet.kept_valid hcontext

theorem Valid.settle {context : Context S} (hcontext : context.Valid) (entity : EntityId)
    (isActive : Bool) : (context.settle entity isActive).Valid :=
  forall_side_settle EntitySet.kept_valid hcontext entity isActive

/-- Settling an entity is a ruling on it, for both sides at once. -/
theorem Valid.toList_side_settle {context : Context S} (hcontext : context.Valid)
    (entity : EntityId) (isActive side : Bool) :
    ((context.settle entity isActive).side side).toList =
      Ruling.heed side (context.side side).toList (entity, isActive) := by
  cases isActive with
  | false =>
    cases side with
    | false => exact (hcontext false).toList_insert entity
    | true => exact (hcontext true).toList_remove entity
  | true =>
    cases side with
    | false => exact (hcontext false).toList_remove entity
    | true => exact (hcontext true).toList_insert entity

end Context

/-- What an event rules on an entity, if it does. -/
def Event.ruling? (event : Event S) : Option Ruling :=
  event.invocation?.bind Invocation.ruling?

/-- What stops a run is no ruling, so an entity is where it was if an entry point fails on it. -/
theorem Invocation.ruling?_of_stop? {line : Plan.Line} {entity : EntityId} {verdict : Verdict}
    {stop : Stop} (hstop : verdict.stop? line = some stop) :
    Invocation.ruling? (line, entity, verdict) = none := by
  cases verdict with
  | settled isActive => cases hstop
  | failed _ | panicked _ => rfl

theorem Run.rulings_eq {τ : Type} (run : Run S τ) :
    run.rulings = run.events.filterMap Event.ruling? :=
  List.filterMap_filterMap

/-- Both sets have followed the rulings that some events record, and their indexes fit. Nothing else
that happens in between shows in the sets. -/
structure Scene.Heeds (before : Scene S σ) (events : List (Event S)) (after : Scene S σ) :
    Prop where
  valid : after.context.Valid
  sides : ∀ side, (after.context.side side).toList =
    Ruling.heedAll side (before.context.side side).toList (events.filterMap Event.ruling?)

theorem Scene.Heeds.of_side_eq {before after : Scene S σ} (hbefore : before.context.Valid)
    (hsides : after.context.side = before.context.side) {events : List (Event S)}
    (hevents : events.filterMap Event.ruling? = []) : before.Heeds events after where
  valid side := by
    rw [hsides]
    exact hbefore side
  sides side := by rw [hevents, hsides, Ruling.heedAll_nil]

theorem Scene.Heeds.trans {first middle last : Scene S σ} {past future : List (Event S)}
    (hpast : first.Heeds past middle) (hfuture : middle.Heeds future last) :
    first.Heeds (past ++ future) last where
  valid := hfuture.valid
  sides side := by
    rw [List.filterMap_append, Ruling.heedAll_append, ← hpast.sides, hfuture.sides]

namespace Engine

variable {systems : List (System S σ)} {plan : Plan} {inactive : InactiveHandling}

namespace Launch

variable {scene : Scene S σ} (launch : Launch systems plan inactive scene)

theorem side_after : launch.after.context.side = scene.context.side := by
  rw [launch.context_after]
  funext side
  cases side <;> rfl

theorem rulings_events :
    launch.events.filterMap Event.ruling? =
      (Invocation.ruling? (launch.line, launch.entity, launch.outcome.verdict)).toList := by
  rw [launch.filterMap_events Event.ruling? rfl]
  simp [Event.ruling?, Event.invocation?]

end Launch

theorem Work.heeds {scene next : Scene S σ} {events : List (Event S)} (hscene : scene.context.Valid)
    (hwork : Work systems plan inactive scene events next) : scene.Heeds events next := by
  cases hwork with
  | turn line entities => exact .of_side_eq hscene rfl rfl
  | skip line entity => exact .of_side_eq hscene rfl rfl
  | @settle _ launch isActive verdict =>
    have hafter : launch.after.context.Valid := fun side => launch.side_after ▸ hscene side
    refine ⟨hafter.settle launch.entity isActive, fun side => ?_⟩
    rw [hafter.toList_side_settle, launch.side_after, launch.rulings_events, verdict]
    rfl

theorem Breakdown.heeds {scene next : Scene S σ} {events : List (Event S)} {stop : Stop}
    (hscene : scene.context.Valid)
    (hbreakdown : Breakdown systems plan inactive scene events next stop) :
    scene.Heeds events next := by
  cases hbreakdown with
  | mk launch stops =>
    refine .of_side_eq hscene launch.side_after ?_
    rw [launch.rulings_events, Invocation.ruling?_of_stop? stops]
    rfl

theorem Step.heeds {scene next : Scene S σ} {events : List (Event S)} (hscene : scene.context.Valid)
    (hstep : Step systems plan inactive scene events next) : scene.Heeds events next := by
  cases hstep with
  | work work => exact work.heeds hscene
  | pass waits =>
    refine .of_side_eq hscene ?_ rfl
    funext side
    cases side <;> rfl

theorem Halt.heeds {scene next : Scene S σ} {events : List (Event S)} {stop : Stop}
    (hscene : scene.context.Valid) (hhalt : Halt systems plan inactive scene events next stop) :
    scene.Heeds events next := by
  cases hhalt with
  | broken breakdown => exact breakdown.heeds hscene
  | unfinished => exact .of_side_eq hscene rfl rfl

/-- What sets keep when entities come in and leave, a step keeps of both sets. A ruling is the only
step that touches them. -/
theorem Step.forall_side {P : EntitySet → Prop} (hkept : EntitySet.Kept P) {scene next : Scene S σ}
    {events : List (Event S)} (hstep : Step systems plan inactive scene events next)
    (hscene : ∀ side, P (scene.context.side side)) : ∀ side, P (next.context.side side) := by
  cases hstep with
  | work work =>
    cases work with
    | turn line entities => exact hscene
    | skip line entity => exact hscene
    | @settle _ launch isActive verdict =>
      rw [← launch.side_after] at hscene
      exact Context.forall_side_settle hkept hscene launch.entity isActive
  | pass waits =>
    intro side
    cases side with
    | false => exact hscene false
    | true => exact hscene true

theorem Halt.side_eq {scene next : Scene S σ} {events : List (Event S)} {stop : Stop}
    (hhalt : Halt systems plan inactive scene events next stop) :
    next.context.side = scene.context.side := by
  cases hhalt with
  | broken breakdown =>
    cases breakdown with
    | mk launch stops => exact launch.side_after
  | unfinished => rfl

theorem side_conclude (whole : Run S (Scene S σ)) (ambient : Option (Ambient S)) :
    (conclude whole ambient).context.side = whole.state.context.side := by
  funext side
  cases side <;> rfl

variable (systems plan inactive) in
/-- What sets keep when entities come in and leave, an update keeps of both sets. -/
theorem forall_side_update {P : EntitySet → Prop} (hkept : EntitySet.Kept P) (limit : Nat)
    (strategy : Strategy) {scene : Scene S σ} (hscene : ∀ side, P (scene.context.side side)) :
    ∀ side, P ((update systems plan limit strategy inactive scene).state.context.side side) := by
  refine related_update
    (Q := fun (before : Scene S σ) _ (after : Scene S σ) =>
      (∀ side, P (before.context.side side)) → ∀ side, P (after.context.side side))
    (fun _ => id) (fun hpast hfuture => hfuture ∘ hpast) (Step.forall_side hkept)
    (fun hhalt hbefore side => hhalt.side_eq ▸ hbefore side) limit strategy scene
    (Context.forall_side_reset hkept) (fun whole ambient hbefore side => ?_) hscene
  rw [side_conclude]
  exact hbefore side

variable (systems plan inactive) in
/-- An update leaves the sets as the rulings of all of its invocations make them. No entity is
active at its beginning, and whoever was inactive still is. -/
theorem heeds_update (limit : Nat) (strategy : Strategy) {scene : Scene S σ}
    (hscene : scene.context.Valid) :
    ({ scene with context := scene.context.reset } : Scene S σ).Heeds
      (update systems plan limit strategy inactive scene).events
      (update systems plan limit strategy inactive scene).state := by
  let start : Scene S σ := { scene with context := scene.context.reset }
  have hbegin : start.Heeds [.updating scene.context.tick strategy inactive] start :=
    .of_side_eq hscene.reset rfl rfl
  let whole := passes (pass systems plan inactive) limit strategy start
  have hpasses : start.Heeds whole.events whole.state :=
    (traced_passes systems plan inactive limit strategy start).related
      (Q := fun before events after => before.context.Valid → before.Heeds events after)
      (fun _ hvalid => .of_side_eq hvalid rfl rfl)
      (fun hpast hfuture hvalid => (hpast hvalid).trans (hfuture (hpast hvalid).valid))
      (fun hstep hvalid => hstep.heeds hvalid) (fun hhalt hvalid => hhalt.heeds hvalid)
      hscene.reset
  have hend : whole.state.Heeds []
      (conclude whole (pass systems plan inactive start).state.ambient) :=
    .of_side_eq hpasses.valid (side_conclude _ _) rfl
  have hwhole := (hbegin.trans hpasses).trans hend
  rw [List.append_nil] at hwhole
  rw [update, updateBy_eq]
  exact hwhole

end Engine

end EntityWorld
