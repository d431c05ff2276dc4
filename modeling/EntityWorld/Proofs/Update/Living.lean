import EntityWorld.Proofs.Update.Path

namespace EntityWorld

variable {S : Schema} {σ : Type}

/-- Between two scenes nobody comes or goes, and everything is run on the living. -/
structure Scene.OnLiving (before : Scene S σ) (events : List (Event S)) (after : Scene S σ) :
    Prop where
  lives_iff : ∀ entity, entity ∈ after.store.rows ↔ entity ∈ before.store.rows
  on_living : ∀ call ∈ events.filterMap Event.invocation?, call.2.1 ∈ before.store.rows

theorem Scene.OnLiving.of_idle {before after : Scene S σ} {events : List (Event S)}
    (hevents : events.filterMap Event.invocation? = [])
    (hrows : after.store.rows = before.store.rows) : before.OnLiving events after where
  lives_iff entity := by rw [hrows]
  on_living := by simp [hevents]

/-- Who lives in the middle lives at the beginning, so later invocations are on the living too. -/
theorem Scene.OnLiving.trans {first middle last : Scene S σ} {past future : List (Event S)}
    (hpast : first.OnLiving past middle) (hfuture : middle.OnLiving future last) :
    first.OnLiving (past ++ future) last where
  lives_iff entity := (hfuture.lives_iff entity).trans (hpast.lives_iff entity)
  on_living call hcall := by
    rw [List.filterMap_append] at hcall
    rcases List.mem_append.mp hcall with hmem | hmem
    · exact hpast.on_living call hmem
    · exact (hpast.lives_iff _).mp (hfuture.on_living call hmem)

namespace Engine

variable {systems : List (System S σ)} {plan : Plan} {inactive : InactiveHandling}

theorem Launch.lives_entity {scene : Scene S σ} (launch : Launch systems plan inactive scene) :
    launch.entity ∈ scene.store.rows :=
  mem_iff_exists_getElem?.mpr ⟨launch.row, launch.lives⟩

/-- An entry point writes to the row of its entity, which is there, so nobody comes to live by
it. -/
theorem Launch.onLiving {scene : Scene S σ} (launch : Launch systems plan inactive scene) :
    scene.OnLiving launch.events launch.after where
  lives_iff entity := by
    have hrows : launch.after.store.rows = scene.store.rows.insert launch.entity
      (Arguments.writeRow launch.shape.signature launch.outcome.arguments launch.row) := rfl
    rw [hrows, Std.ExtTreeMap.mem_insert, Std.LawfulEqCmp.compare_eq_iff_eq]
    refine ⟨?_, .inr⟩
    rintro (rfl | hlives)
    · exact launch.lives_entity
    · exact hlives
  on_living call hcall := by
    rw [launch.invocations_events] at hcall
    obtain rfl := List.mem_singleton.mp hcall
    exact launch.lives_entity

theorem Step.onLiving {scene next : Scene S σ} {events : List (Event S)}
    (hstep : Step systems plan inactive scene events next) : scene.OnLiving events next := by
  cases hstep with
  | work work =>
    cases work with
    | turn line entities => exact .of_idle rfl rfl
    | skip line entity => exact .of_idle rfl rfl
    | settle launch verdict => exact ⟨launch.onLiving.lives_iff, launch.onLiving.on_living⟩
  | pass waits => exact .of_idle rfl rfl

theorem Halt.onLiving {scene next : Scene S σ} {events : List (Event S)} {stop : Stop}
    (hhalt : Halt systems plan inactive scene events next stop) : scene.OnLiving events next := by
  cases hhalt with
  | broken breakdown =>
    cases breakdown with
    | mk launch stops => exact launch.onLiving
  | unfinished => exact .of_idle rfl rfl

variable (systems plan inactive) in
/-- Updates only run on the living, and leave them living. Entry points have no way to create or
remove an entity. -/
theorem onLiving_update (limit : Nat) (strategy : Strategy) (scene : Scene S σ) :
    scene.OnLiving (update systems plan limit strategy inactive scene).events
      (update systems plan limit strategy inactive scene).state :=
  related_update (fun _ => .of_idle rfl rfl) Scene.OnLiving.trans Step.onLiving Halt.onLiving limit
    strategy scene (.of_idle rfl rfl) fun _ _ => .of_idle rfl rfl

end Engine

end EntityWorld
