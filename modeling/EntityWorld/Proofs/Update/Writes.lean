import EntityWorld.Proofs.Update.Path

namespace EntityWorld

variable {S : Schema} {σ : Type}

/-- An invocation on an entity, of an entry point that declares a component type as written. -/
def Invocation.Writes (systems : List (System S σ)) (entity : EntityId) (type : TypeId)
    (call : Invocation) : Prop :=
  call.2.1 = entity ∧ ∃ shape : Shape S σ, call.1.shape? systems = some shape ∧
    Param.component type .write ∈ shape.signature

/-- What is not declared as written is not written, whatever the entry point leaves in the
argument. -/
theorem Arguments.find?_writeRow {type : TypeId} {signature : Signature}
    (hundeclared : Param.component type .write ∉ signature) (arguments : Arguments S signature)
    (row : Row S) : (Arguments.writeRow signature arguments row).find? type = row.find? type := by
  induction signature generalizing row with
  | nil => rfl
  | cons param signature ih =>
    obtain ⟨hparam, hrest⟩ := not_or.mp (mt List.mem_cons.mpr hundeclared)
    obtain ⟨slot, rest⟩ := arguments
    match param with
    | .component written .write =>
      have hne : written ≠ type := by
        rintro rfl
        exact hparam rfl
      exact (ih hrest rest _).trans (Row.find?_replace_of_ne hne row)
    | .component _ .read => exact ih hrest rest row
    | .context => exact ih hrest rest row
    | .state _ _ => exact ih hrest rest row

theorem Store.get_congr {before after : Store S} {entity : EntityId} {type : TypeId}
    (hfound : after.rows[entity]?.map (Row.find? · type) =
      before.rows[entity]?.map (Row.find? · type)) :
    after.get entity type = before.get entity type := by
  have hget (store : Store S) : store.get entity type =
      match store.rows[entity]?.map (Row.find? · type) with
      | none => .error (.unknownEntity entity)
      | some none => .error (.missingComponent entity type.name)
      | some (some record) => .ok record := by
    unfold get row
    cases store.rows[entity]? with
    | none => rfl
    | some row => cases hrow : row.find? type <;> simp [hrow, bind, Except.bind] <;> rfl
  rw [hget, hget, hfound]

/-- Between two scenes every component is left alone for which no invocation declares its type as
written. -/
def Scene.WritesDeclared (systems : List (System S σ)) (before : Scene S σ)
    (events : List (Event S)) (after : Scene S σ) : Prop :=
  ∀ (entity : EntityId) (type : TypeId),
    after.store.get entity type = before.store.get entity type ∨
      ∃ call ∈ events.filterMap Event.invocation?, Invocation.Writes systems entity type call

variable {systems : List (System S σ)} {plan : Plan} {inactive : InactiveHandling}

theorem Scene.WritesDeclared.of_idle {before after : Scene S σ} {events : List (Event S)}
    (hrows : after.store.rows = before.store.rows) :
    before.WritesDeclared systems events after :=
  fun _ _ => .inl (Store.get_congr (by rw [hrows]))

theorem Scene.WritesDeclared.trans {first middle last : Scene S σ} {past future : List (Event S)}
    (hpast : first.WritesDeclared systems past middle)
    (hfuture : middle.WritesDeclared systems future last) :
    first.WritesDeclared systems (past ++ future) last := by
  intro entity type
  rw [List.filterMap_append]
  rcases hfuture entity type with hkept | ⟨call, hcall, hwrites⟩
  · rcases hpast entity type with hbefore | ⟨call, hcall, hwrites⟩
    · exact .inl (hkept.trans hbefore)
    · exact .inr ⟨call, List.mem_append_left _ hcall, hwrites⟩
  · exact .inr ⟨call, List.mem_append_right _ hcall, hwrites⟩

namespace Engine

/-- An entry point writes to its own entity, and there to what it declares. Its line tells which
entry point it is. -/
theorem Launch.writesDeclared {scene : Scene S σ} (launch : Launch systems plan inactive scene) :
    scene.WritesDeclared systems launch.events launch.after := by
  intro entity type
  by_cases hentity : entity = launch.entity
  · subst hentity
    by_cases hdeclared : Param.component type .write ∈ launch.shape.signature
    · refine .inr ⟨(launch.line, launch.entity, launch.outcome.verdict), ?_, rfl, launch.shape,
        launch.stands, hdeclared⟩
      rw [launch.invocations_events]
      exact List.mem_singleton_self _
    · refine .inl (Store.get_congr ?_)
      rw [launch.rows_after_entity, launch.lives, Option.map_some, Option.map_some,
        Arguments.find?_writeRow hdeclared]
  · exact .inl (Store.get_congr (by rw [launch.rows_after_of_ne hentity]))

/-- A step of an update writes what is declared as written, and nothing else. -/
theorem Step.writesDeclared {scene next : Scene S σ} {events : List (Event S)}
    (hstep : Step systems plan inactive scene events next) :
    scene.WritesDeclared systems events next := by
  cases hstep with
  | work work =>
    cases work with
    | turn | skip => exact .of_idle rfl
    | settle launch => exact launch.writesDeclared
  | pass => exact .of_idle rfl

/-- An entry point that fails has written what is declared, and nothing else. -/
theorem Halt.writesDeclared {scene next : Scene S σ} {events : List (Event S)} {stop : Stop}
    (hhalt : Halt systems plan inactive scene events next stop) :
    scene.WritesDeclared systems events next := by
  cases hhalt with
  | broken breakdown =>
    cases breakdown with
    | mk launch => exact launch.writesDeclared
  | unfinished => exact .of_idle rfl

variable (systems plan inactive) in
/-- In an update a component changes only where an entry point runs on its entity whose signature
declares its type as written. -/
theorem writesDeclared_update (limit : Nat) (strategy : Strategy) (scene : Scene S σ) :
    scene.WritesDeclared systems (update systems plan limit strategy inactive scene).events
      (update systems plan limit strategy inactive scene).state :=
  related_update (fun _ => .of_idle rfl) Scene.WritesDeclared.trans Step.writesDeclared
    Halt.writesDeclared limit strategy scene (.of_idle rfl) fun _ _ => .of_idle rfl

end Engine

end EntityWorld
