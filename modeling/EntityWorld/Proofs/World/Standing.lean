import EntityWorld.Proofs.Store.Living
import EntityWorld.Proofs.Update.Living
import EntityWorld.Proofs.World.Activity

namespace EntityWorld

variable {S : Schema} {σ : Type}

namespace Context

/-- An entity is active or inactive. -/
def Knows (context : Context S) (entity : EntityId) : Prop :=
  context.active.contains entity = true ∨ context.inactive.contains entity = true

theorem knows_iff_exists_side {context : Context S} {entity : EntityId} :
    context.Knows entity ↔ ∃ side, (context.side side).contains entity = true := by
  simp [Knows, side, or_comm]

/-- Striking an entity takes it out of both sets, and nobody comes in. -/
theorem Valid.contains_side_forget {context : Context S} (hcontext : context.Valid)
    {entity other : EntityId} {side : Bool}
    (hmem : ((context.forget other).side side).contains entity = true) :
    entity ≠ other ∧ (context.side side).contains entity = true := by
  cases side with
  | false => exact (hcontext false).contains_remove_iff.mp hmem
  | true => exact (hcontext true).contains_remove_iff.mp hmem

end Context

/-- The latest ruling on an entity is one of the rulings. -/
theorem Ruling.mem_of_latest? {rulings : List Ruling} {entity : EntityId} {isActive : Bool}
    (hlatest : latest? rulings entity = some isActive) : (entity, isActive) ∈ rulings :=
  List.mem_reverse.mp (Zoo.mem_of_lookup hlatest)

/-- A ruling is the verdict of an invocation, so nobody is ruled on who is not run on. -/
theorem Run.exists_invocation_of_mem_rulings {τ : Type} {run : Run S τ} {entity : EntityId}
    {isActive : Bool} (hmem : (entity, isActive) ∈ run.rulings) :
    ∃ line, (line, entity, .settled isActive) ∈ run.invocations := by
  obtain ⟨⟨line, found, verdict⟩, hcall, hruling⟩ := List.mem_filterMap.mp hmem
  cases verdict with
  | settled isActive =>
    obtain ⟨rfl, rfl⟩ := Prod.mk.inj (Option.some.inj hruling)
    exact ⟨line, hcall⟩
  | failed _ | panicked _ => cases hruling

namespace World

/-- Who is on a side after a call was there before, and is not the one that the call removes. -/
theorem Call.not_removes_of_contains {call : World.Call S} {store : Store S}
    {context : Context S} (hcontext : context.Valid) {entity : EntityId} (side : Bool)
    (hmem : ((call.onContext store context).side side).contains entity = true) :
    (context.side side).contains entity = true ∧ ¬call.onStore.Removes store entity := by
  cases call with
  | remove removed =>
    rw [onContext] at hmem
    cases hresult : store.remove removed with
    | error cause after =>
      rw [hresult] at hmem
      refine ⟨hmem, ?_⟩
      rintro ⟨_, row, found, hfound⟩
      cases hresult.symm.trans hfound
    | ok row after =>
      rw [hresult] at hmem
      obtain ⟨hne, hbefore⟩ := hcontext.contains_side_forget hmem
      exact ⟨hbefore, fun hremoves => hne hremoves.1.symm⟩
  | create | createInitial | set | modify | setField | register | restore => exact ⟨hmem, id⟩

/-- A call makes nobody active or inactive. It can only take an entity away, which is struck
then. -/
theorem Call.knows_of_knows_run {call : World.Call S} {world : World S σ}
    (hcontext : world.context.Valid) {entity : EntityId}
    (hknows : (call.run world).context.Knows entity) :
    world.context.Knows entity ∧ ¬call.onStore.Removes world.store entity := by
  rw [call.run_eq] at hknows
  obtain ⟨side, hmem⟩ := Context.knows_iff_exists_side.mp hknows
  obtain ⟨hbefore, hkept⟩ := Call.not_removes_of_contains hcontext side hmem
  exact ⟨Context.knows_iff_exists_side.mpr ⟨side, hbefore⟩, hkept⟩

/-- Of the calls on a world only restoring places an entity that has lived before. Creating takes a
number that was never used. -/
theorem Call.restores_of_places {call : World.Call S} {world : World S σ} {entity : EntityId}
    (hnext : following entity ≤ world.store.nextId)
    (hplaces : call.onStore.Places world.store entity) :
    ∃ snapshot, call = .restore snapshot ∧ entity ∈ snapshot ∧
      ∃ after, world.restore snapshot = .ok () after := by
  cases call with
  | create components =>
    obtain ⟨after, hcreate⟩ := hplaces
    exact absurd hcreate (Store.create_ne_ok_of_following_le hnext components after)
  | createInitial types =>
    obtain ⟨after, hcreate⟩ := hplaces
    exact absurd hcreate (Store.create_ne_ok_of_following_le hnext _ after)
  | restore snapshot =>
    obtain ⟨hlisted, after, hrestore⟩ := hplaces
    refine ⟨snapshot, rfl, hlisted, { world with store := after }, ?_⟩
    rw [World.restore, hrestore]
    rfl
  | remove | set | modify | setField | register => exact hplaces.elim

/-- Who is on a side after an update has been put there by its latest ruling on it, or was inactive
before and is not ruled on. -/
theorem contains_side_updateWith {world : World S σ} (hcontext : world.context.Valid) (limit : Nat)
    (ambient : Option (Ambient S)) (strategy : Strategy) (inactive : InactiveHandling)
    (entity : EntityId) (side : Bool) :
    let run := world.updateWith limit ambient strategy inactive
    (run.state.1.context.side side).contains entity = true →
      Ruling.latest? run.rulings entity = some side ∨
      Ruling.latest? run.rulings entity = none ∧ side = false ∧
        world.context.inactive.contains entity = true := by
  intro run hmem
  let scene : Scene S σ :=
    { store := world.store, context := world.context, data := world.data, ambient }
  have hscene : scene.context.Valid := hcontext
  have hheeds := Engine.heeds_update world.systems world.plan inactive limit strategy hscene
  have hon := (hheeds.contains_iff hcontext.reset side entity).mp hmem
  have hrulings : run.rulings = (Engine.update world.systems world.plan limit strategy inactive
      scene).events.filterMap Event.ruling? := run.rulings_eq
  rw [← hrulings] at hon
  rcases hon with hlatest | ⟨hnone, hheld⟩
  · exact .inl hlatest
  · cases side with
    | true => simp [Context.side, Context.reset, scene] at hheld
    | false => exact .inr ⟨hnone, rfl, (hcontext false).mem_toList_iff.mp hheld⟩

/-- An update rules on the living only, because it runs on them only. -/
theorem lives_of_mem_rulings {world : World S σ} {limit : Nat} {ambient : Option (Ambient S)}
    {strategy : Strategy} {inactive : InactiveHandling} {entity : EntityId} {isActive : Bool}
    (hmem : (entity, isActive) ∈ (world.updateWith limit ambient strategy inactive).rulings) :
    entity ∈ world.store.rows := by
  obtain ⟨line, hcall⟩ := Run.exists_invocation_of_mem_rulings hmem
  exact (Engine.onLiving_update world.systems world.plan inactive limit strategy
    { store := world.store, context := world.context, data := world.data, ambient }).on_living _
      hcall

/-- Nobody comes or goes in an update. -/
theorem lives_updateWith_iff (world : World S σ) (limit : Nat) (ambient : Option (Ambient S))
    (strategy : Strategy) (inactive : InactiveHandling) (entity : EntityId) :
    entity ∈ (world.updateWith limit ambient strategy inactive).state.1.store.rows ↔
      entity ∈ world.store.rows :=
  (Engine.onLiving_update world.systems world.plan inactive limit strategy
    { store := world.store, context := world.context, data := world.data, ambient }).lives_iff entity

/-- Nobody is both active and inactive, and only the living are either. -/
structure Coherent (world : World S σ) : Prop where
  disjoint : ∀ entity, ¬(world.context.active.contains entity = true ∧
    world.context.inactive.contains entity = true)
  lives : ∀ entity, world.context.Knows entity → entity ∈ world.store.rows

theorem Coherent.of_empty {world : World S σ} (hempty : world.context = .empty) :
    world.Coherent := by
  constructor <;> intro entity <;>
    simp [hempty, Context.Knows, Context.empty, EntitySet.empty, EntitySet.contains]

/-- A call keeps this: it makes nobody active or inactive, and whoever it takes away it strikes from
both sets. -/
theorem Coherent.run {world : World S σ} {order : List EntityId} (hworld : world.Coherent)
    (hconsistent : world.Consistent order) (hcontext : world.context.Valid)
    (call : World.Call S) : (call.run world).Coherent := by
  constructor
  · intro entity hboth
    rw [call.run_eq] at hboth
    refine hworld.disjoint entity ⟨?_, ?_⟩
    · exact (Call.not_removes_of_contains hcontext true hboth.1).1
    · exact (Call.not_removes_of_contains hcontext false hboth.2).1
  · intro entity hknows
    obtain ⟨hbefore, hkept⟩ := Call.knows_of_knows_run hcontext hknows
    rw [call.run_eq]
    exact hconsistent.indexed.lives_run hconsistent.sound (hworld.lives entity hbefore) hkept

/-- An update keeps this: it rules on the living only, and each ruling puts an entity on one
side. -/
theorem Coherent.update {world : World S σ} (hworld : world.Coherent)
    (hcontext : world.context.Valid) (limit : Nat) (ambient : Option (Ambient S))
    (strategy : Strategy) (inactive : InactiveHandling) :
    (world.updateWith limit ambient strategy inactive).state.1.Coherent := by
  have hside := contains_side_updateWith hcontext limit ambient strategy inactive
  constructor
  · rintro entity ⟨hactive, hinactive⟩
    obtain hlatest | ⟨_, hfalse, _⟩ := hside entity true hactive
    · obtain hother | ⟨hnone, _⟩ := hside entity false hinactive
      · simp [hlatest] at hother
      · simp [hlatest] at hnone
    · cases hfalse
  · intro entity hknows
    rw [lives_updateWith_iff]
    obtain ⟨side, hmem⟩ := Context.knows_iff_exists_side.mp hknows
    rcases hside entity side hmem with hlatest | ⟨_, _, hbefore⟩
    · exact lives_of_mem_rulings (Ruling.mem_of_latest? hlatest)
    · exact hworld.lives entity (.inr hbefore)

/-- Nobody is both active and inactive, and only the living are either, in every world that calls
and updates lead to. -/
theorem Reached.coherent {world : World S σ} {order : List EntityId}
    (hreached : world.Reached order) : world.Coherent := by
  induction hreached with
  | built before build =>
    obtain ⟨plan, _, rfl⟩ := Builder.build_eq_ok build
    exact .of_empty rfl
  | call call before ih => exact ih.run before.consistent before.valid call
  | update limit ambient strategy inactive before ih =>
    exact ih.update before.valid limit ambient strategy inactive

/-- A call or an update. -/
inductive Operation (S : Schema) where
  | call (call : World.Call S)
  | update (limit : Nat) (ambient : Option (Ambient S)) (strategy : Strategy)
      (inactive : InactiveHandling)

namespace Operation

/-- The world that an operation leaves, however it ends. -/
def run (world : World S σ) : Operation S → World S σ
  | call made => made.run world
  | update limit ambient strategy inactive =>
    (world.updateWith limit ambient strategy inactive).state.1

/-- The world that operations leave when they are made one after another. -/
def runAll (operations : List (Operation S)) (world : World S σ) : World S σ :=
  operations.foldl run world

theorem runAll_concat (operations : List (Operation S)) (operation : Operation S)
    (world : World S σ) :
    runAll (operations ++ [operation]) world = operation.run (runAll operations world) := by
  simp [runAll]

end Operation

theorem Reached.exists_runAll {world : World S σ} {order : List EntityId}
    (hreached : world.Reached order) (operations : List (Operation S)) :
    ∃ placed, (Operation.runAll operations world).Reached placed := by
  induction operations using List.reverseRecOn with
  | nil => exact ⟨order, hreached⟩
  | append_singleton operations operation ih =>
    obtain ⟨placed, hbefore⟩ := ih
    rw [Operation.runAll_concat]
    cases operation with
    | call call => exact ⟨_, hbefore.call call⟩
    | update limit ambient strategy inactive =>
      exact ⟨placed, hbefore.update limit ambient strategy inactive⟩

/-- Among some operations an entity is set back from a snapshot. -/
def SetBack (world : World S σ) (entity : EntityId) (operations : List (Operation S)) : Prop :=
  ∃ before snapshot later, operations = before ++ .call (.restore snapshot) :: later ∧
    entity ∈ snapshot ∧ ∃ after, (Operation.runAll before world).restore snapshot = .ok () after

/-- Among some operations an entity is set back from a snapshot, and an update after that rules on
it. -/
def SetBackAndRuledOn (world : World S σ) (entity : EntityId) (operations : List (Operation S)) :
    Prop :=
  ∃ before limit ambient strategy inactive later,
    operations = before ++ .update limit ambient strategy inactive :: later ∧
    world.SetBack entity before ∧
    ∃ isActive, (entity, isActive) ∈
      ((Operation.runAll before world).updateWith limit ambient strategy inactive).rulings

theorem SetBack.append {world : World S σ} {entity : EntityId} {operations : List (Operation S)}
    (hback : world.SetBack entity operations) (more : List (Operation S)) :
    world.SetBack entity (operations ++ more) := by
  obtain ⟨before, snapshot, later, rfl, hrest⟩ := hback
  exact ⟨before, snapshot, later ++ more, by simp, hrest⟩

theorem SetBackAndRuledOn.append {world : World S σ} {entity : EntityId}
    {operations : List (Operation S)} (hback : world.SetBackAndRuledOn entity operations)
    (more : List (Operation S)) : world.SetBackAndRuledOn entity (operations ++ more) := by
  obtain ⟨before, limit, ambient, strategy, inactive, later, rfl, hrest⟩ := hback
  exact ⟨before, limit, ambient, strategy, inactive, later ++ more, by simp, hrest⟩

/-- Who lives can be removed, whatever else is true of the world. -/
theorem remove_of_lives {world : World S σ} {entity : EntityId}
    (hlives : entity ∈ world.store.rows) :
    world.remove entity = .ok () ((Call.remove entity).run world) := by
  obtain ⟨row, hrow⟩ := mem_iff_exists_getElem?.mp hlives
  have hremove : world.remove entity = .ok ()
      { world with
        store := world.store.eraseRow entity
        context := world.context.forget entity } := by
    rw [World.remove, Store.remove, hrow]
  exact hremove.trans (congrArg (EStateM.Result.ok ()) (congrArg stateOf hremove).symm)

/-- An entity that is removed does not live and is not known any more, and its number is used up. -/
theorem Reached.gone_of_remove {world gone : World S σ} {order : List EntityId}
    (hreached : world.Reached order) {entity : EntityId}
    (hremove : world.remove entity = .ok () gone) :
    ∃ placed, gone.Reached placed ∧ entity ∉ gone.store.rows ∧ ¬gone.context.Knows entity ∧
      following entity ≤ gone.store.nextId := by
  have hafter : (Call.remove entity).run world = gone := congrArg stateOf hremove
  refine ⟨_, hafter ▸ hreached.call (.remove entity), ?_⟩
  unfold World.remove at hremove
  split at hremove
  case h_1 => cases hremove
  case h_2 row store hstore =>
    obtain ⟨-, rfl⟩ := EStateM.Result.ok.inj hremove
    obtain ⟨hrow, rfl⟩ := Store.remove_eq_ok hstore
    refine ⟨?_, fun hknows => ?_, ?_⟩
    · simp
    · obtain ⟨side, hmem⟩ := Context.knows_iff_exists_side.mp hknows
      exact (hreached.valid.contains_side_forget hmem).1 rfl
    · rw [Store.nextId_eraseRow]
      exact hreached.consistent.sound.numbered hrow

/-- How an entity that does not live and whose number is used up can come to be known: it is set
back first, and then an update rules on it. -/
theorem Reached.setBack_of_runAll {gone : World S σ} {order : List EntityId}
    (hreached : gone.Reached order) {entity : EntityId} (hdead : entity ∉ gone.store.rows)
    (hunknown : ¬gone.context.Knows entity) (hnext : following entity ≤ gone.store.nextId)
    (operations : List (Operation S)) :
    let last := Operation.runAll operations gone
    (entity ∈ last.store.rows → gone.SetBack entity operations) ∧
      (last.context.Knows entity → gone.SetBackAndRuledOn entity operations) ∧
      following entity ≤ last.store.nextId := by
  induction operations using List.reverseRecOn with
  | nil => exact ⟨fun hlives => absurd hlives hdead, fun hknows => absurd hknows hunknown, hnext⟩
  | append_singleton operations operation ih =>
    obtain ⟨hback, hruled, hnumber⟩ := ih
    obtain ⟨placed, hnow⟩ := hreached.exists_runAll operations
    obtain ⟨hsound, hindexed, _⟩ := hnow.consistent
    rw [Operation.runAll_concat]
    generalize hworld : Operation.runAll operations gone = world at *
    cases operation with
    | call call =>
      refine ⟨fun hlives => ?_, fun hknows => ?_, ?_⟩
      · rw [Operation.run, call.run_eq] at hlives
        rcases hindexed.lives_or_places hsound _ hlives with hbefore | hplaces
        · exact (hback hbefore).append _
        · obtain ⟨snapshot, rfl, hlisted, hrestored⟩ := Call.restores_of_places hnumber hplaces
          exact ⟨operations, snapshot, [], rfl, hlisted, hworld ▸ hrestored⟩
      · exact (hruled (Call.knows_of_knows_run hnow.valid hknows).1).append _
      · rw [Operation.run, call.run_eq]
        exact UInt32.le_trans hnumber (hsound.nextId_le_run _)
    | update limit ambient strategy inactive =>
      refine ⟨fun hlives => ?_, fun hknows => ?_, ?_⟩
      · exact (hback ((lives_updateWith_iff ..).mp hlives)).append _
      · obtain ⟨side, hmem⟩ := Context.knows_iff_exists_side.mp hknows
        rcases contains_side_updateWith hnow.valid limit ambient strategy inactive entity side hmem
          with hlatest | ⟨_, _, hbefore⟩
        · have hruling := Ruling.mem_of_latest? hlatest
          exact ⟨operations, limit, ambient, strategy, inactive, [], rfl,
            hback (lives_of_mem_rulings hruling), side, hworld ▸ hruling⟩
        · exact (hruled (.inr hbefore)).append _
      · have hlayout := Engine.sameLayout_update world.systems world.plan limit strategy inactive
          { store := world.store, context := world.context, data := world.data, ambient }
        exact hlayout.nextId.symm ▸ hnumber

end World

/-- Nobody is both active and inactive, and only the living are either, in every world that calls
and updates lead to. So an entity that is created is neither. One that is removed is neither as long
as it is not set back from a snapshot and ruled on by an update after that. -/
theorem standing_of_reached {world : World S σ} {order : List EntityId}
    (hreached : world.Reached order) :
    (∀ entity, ¬(world.context.active.contains entity = true ∧
      world.context.inactive.contains entity = true)) ∧
    (∀ entity, world.context.Knows entity → world.store.contains entity = true) ∧
    (∀ (components : List (Component S)) (entity : EntityId) (after : World S σ),
      world.create components = .ok entity after → ¬after.context.Knows entity) ∧
    (∀ (types : List TypeId) (entity : EntityId) (after : World S σ),
      world.createInitial types = .ok entity after → ¬after.context.Knows entity) ∧
    ∀ (entity : EntityId) (gone : World S σ), world.remove entity = .ok () gone →
      ∀ operations : List (World.Operation S),
        (World.Operation.runAll operations gone).context.Knows entity →
          gone.SetBackAndRuledOn entity operations := by
  obtain ⟨hsound, hindexed, _⟩ := hreached.consistent
  have hcoherent := hreached.coherent
  have hcreate (components : List (Component S)) (entity : EntityId) (after : World S σ)
      (hafter : world.create components = .ok entity after) : ¬after.context.Knows entity := by
    unfold World.create World.withStore at hafter
    split at hafter
    case h_1 => cases hafter
    case h_2 created store hstore =>
      obtain ⟨rfl, rfl⟩ := EStateM.Result.ok.inj hafter
      exact fun hknows => hsound.not_mem_of_create hstore (hcoherent.lives created hknows)
  refine ⟨hcoherent.disjoint, fun entity hknows => ?_, hcreate,
    fun types => hcreate (types.map Component.initial), ?_⟩
  · exact Std.ExtTreeMap.mem_iff_contains.mp (hcoherent.lives entity hknows)
  · intro entity gone hremove operations hknows
    obtain ⟨order, hgone, hdead, hunknown, hnext⟩ := hreached.gone_of_remove hremove
    exact (hgone.setBack_of_runAll hdead hunknown hnext operations).2.1 hknows

/-- In a world whose one entity is active, another one is created, and the one is removed, set back
and ruled on again. -/
theorem standing_of_reached_reader :
    let world := (Zoo.readerWorld.updateWith 0 none .recursive .visit).state.1
    let gone := (World.Call.remove 0).run world
    let operations : List (World.Operation Zoo.schema) :=
      [.call (.restore world.store.snapshot), .update 0 none .single .visit]
    world.context.active.contains 0 = true ∧
      ¬(world.context.active.contains 0 = true ∧ world.context.inactive.contains 0 = true) ∧
      world.store.contains 0 = true ∧
      (∃ after, world.create [Zoo.plain] = .ok world.store.nextId after ∧
        ¬after.context.Knows world.store.nextId) ∧
      (World.Operation.runAll operations gone).context.active.contains 0 = true ∧
      gone.SetBackAndRuledOn 0 operations := by
  intro world gone operations
  have hreached : world.Reached [0] := .update 0 none .recursive .visit Zoo.reached_readerWorld
  obtain ⟨hdisjoint, hlives, hcreate, _, hremove⟩ := standing_of_reached hreached
  have hactive : world.context.active.contains 0 = true := by decide +kernel
  have hagain : (World.Operation.runAll operations gone).context.active.contains 0 = true := by
    decide +kernel
  have hroom : world.store.nextId ≠ lastEntity := by decide +kernel
  have hmade : world.create [Zoo.plain] = .ok world.store.nextId
      ((World.Call.create [Zoo.plain]).run world) := by
    have hrow : Row.ofList [Zoo.plain] = .ok [Zoo.plain] := rfl
    rw [World.Call.run, World.Call.result, World.create, Store.create, if_neg hroom, hrow]
    rfl
  have hlive := hlives 0 (.inl hactive)
  have hgone : world.remove 0 = .ok () gone :=
    World.remove_of_lives (Std.ExtTreeMap.mem_iff_contains.mpr hlive)
  exact ⟨hactive, hdisjoint 0, hlive, ⟨_, hmade, hcreate _ _ _ hmade⟩, hagain,
    hremove 0 gone hgone operations (.inl hagain)⟩

end EntityWorld
