import EntityWorld.Proofs.Update.Sides
import EntityWorld.Proofs.World.Scan

namespace EntityWorld

variable {S : Schema} {σ : Type}

namespace World

/-- What sets keep when entities leave, a call on a world keeps of both: at most it forgets an
entity that is removed. -/
theorem Call.forall_side_onContext {P : EntitySet → Prop} (hkept : EntitySet.Kept P)
    (call : World.Call S) (store : Store S) {context : Context S}
    (hcontext : ∀ side, P (context.side side)) :
    ∀ side, P ((call.onContext store context).side side) := by
  unfold onContext
  split
  · split
    · exact Context.forall_side_forget hkept hcontext _
    · exact hcontext
  · exact hcontext

/-- What sets keep when entities come in and leave is true of both sets in every world that calls
and updates lead to. -/
theorem Reached.forall_side {P : EntitySet → Prop} (hkept : EntitySet.Kept P) {world : World S σ}
    {order : List EntityId} (hreached : world.Reached order) :
    ∀ side, P (world.context.side side) := by
  induction hreached with
  | @built builder _ _ _ build =>
    obtain ⟨plan, _, rfl⟩ := Builder.build_eq_ok build
    exact Context.forall_side_empty hkept
  | call call _ ih =>
    rw [call.run_eq]
    exact call.forall_side_onContext hkept _ ih
  | @update world _ limit ambient strategy inactive _ ih =>
    let scene : Scene S σ :=
      { store := world.store, context := world.context, data := world.data, ambient }
    have hscene : ∀ side, P (scene.context.side side) := ih
    exact Engine.forall_side_update world.systems world.plan inactive hkept limit strategy hscene

/-- In every world that calls and updates lead to, the indexes of both sets fit their slots. Sets
are built by coming in and leaving only. -/
theorem Reached.valid {world : World S σ} {order : List EntityId}
    (hreached : world.Reached order) : world.context.Valid :=
  hreached.forall_side EntitySet.kept_valid

end World

/-- A set lists each of its members once, in an order. -/
structure EntitySet.ListedBy (set : EntitySet) (before : EntityId → EntityId → Prop) : Prop where
  nodup : set.toList.Nodup
  mem_iff : ∀ entity, entity ∈ set.toList ↔ set.contains entity = true
  pairwise : set.toList.Pairwise before

namespace Scene.Heeds

variable {before after : Scene S σ} {events : List (Event S)}

/-- Who is on a side after some events, by the rulings that they record. Besides these nothing puts
anybody on a side. -/
theorem contains_iff (hheeds : before.Heeds events after) (hbefore : before.context.Valid)
    (side : Bool) (entity : EntityId) :
    (after.context.side side).contains entity = true ↔
      Ruling.OnSide (before.context.side side).toList side (events.filterMap Event.ruling?)
        entity := by
  rw [← (hheeds.valid side).mem_toList_iff, hheeds.sides side]
  exact Ruling.mem_heedAll_iff (hbefore side).nodup_toList

theorem listedBy (hheeds : before.Heeds events after) (hbefore : before.context.Valid)
    (side : Bool) :
    (after.context.side side).ListedBy
      (Ruling.CameBefore (before.context.side side).toList side
        (events.filterMap Event.ruling?)) where
  nodup := (hheeds.valid side).nodup_toList
  mem_iff _ := (hheeds.valid side).mem_toList_iff
  pairwise := by
    rw [hheeds.sides side]
    exact Ruling.pairwise_heedAll (hbefore side).nodup_toList

end Scene.Heeds

/-- However an update ends, an entity is active after it if the latest ruling of the update on it
says so, and inactive if the latest ruling says so or if it was inactive and there is no ruling.
Both sets list their members in the order in which they came in last, and the inactive entities on
which there is no ruling are in the order in which they were. -/
theorem activity_eq_latest {world : World S σ} {order : List EntityId}
    (hreached : world.Reached order) (limit : Nat) (ambient : Option (Ambient S))
    (strategy : Strategy) (inactive : InactiveHandling) :
    let run := world.updateWith limit ambient strategy inactive
    let before := world.context
    let after := run.state.1.context
    (∀ entity,
      (after.active.contains entity = true ↔
        Ruling.latest? run.rulings entity = some true) ∧
      (after.inactive.contains entity = true ↔
        Ruling.latest? run.rulings entity = some false ∨
        Ruling.latest? run.rulings entity = none ∧ before.inactive.contains entity = true)) ∧
    after.active.ListedBy (Ruling.CameBefore [] true run.rulings) ∧
    after.inactive.ListedBy (Ruling.CameBefore before.inactive.toList false run.rulings) ∧
    after.inactive.toList.filter (fun entity => Ruling.latest? run.rulings entity = none) =
      before.inactive.toList.filter (fun entity => Ruling.latest? run.rulings entity = none) := by
  intro run before after
  let scene : Scene S σ :=
    { store := world.store, context := world.context, data := world.data, ambient }
  have hvalid : scene.context.Valid := hreached.valid
  have hheeds := Engine.heeds_update world.systems world.plan inactive limit strategy hvalid
  have hrulings : run.rulings = (Engine.update world.systems world.plan limit strategy inactive
      scene).events.filterMap Event.ruling? := run.rulings_eq
  have hcontains := hheeds.contains_iff hvalid.reset
  have hlisted := hheeds.listedBy hvalid.reset
  have hsides := hheeds.sides false
  simp only [← hrulings] at hcontains hlisted hsides
  refine ⟨fun entity => ⟨?_, ?_⟩, hlisted true, hlisted false, ?_⟩
  · refine (hcontains true entity).trans ?_
    simp [Ruling.OnSide, Context.side, Context.reset]
  · refine (hcontains false entity).trans ?_
    rw [Ruling.OnSide, (hvalid.reset false).mem_toList_iff]
    rfl
  · exact (congrArg _ hsides).trans (Ruling.filter_heedAll (hvalid false).nodup_toList)

namespace Zoo

/-- The verdicts of two updates with two lines each. -/
def moods : List Bool :=
  [false, false, true, false, false, false, false, false, true, false, true, false, false, true]

/-- A system with two entry points that read one component and give these verdicts one after
another. -/
def moody : System Zoo.schema Nat where
  id := Zoo.system 0
  shapes := List.replicate 2
    { signature := [.component plain.type .read]
      invoke := fun arguments made =>
        { arguments, data := made + 1, verdict := .settled (moods.getD made false) } }

/-- Four entities with the component, and that system. -/
def household : World Zoo.schema Nat where
  systems := [moody]
  plan := Plan.linesOf moody 0 0
  store := Store.Call.runAll (List.replicate 4 (.create [plain])) {}
  config := {}
  data := 0

/-- After a first update, the last entity gets another component instead of the one that is read. -/
def settled : World Zoo.schema Nat :=
  (World.Call.restore (Std.ExtTreeMap.empty.insert 3
    (Std.ExtTreeMap.empty.insert "zoo::Health" ∅))).run
    ((World.Call.register { name := "zoo::Health" }).run
      (household.updateWith 0 none .single .visit).state.1)

/-- Calls and updates lead to this world, so all that is known of such worlds can be used of it. -/
theorem exists_reached_settled : ∃ order, settled.Reached order := by
  have hbuilder : Builder.Reached (S := Zoo.schema) _ _ :=
    .call (.addSystem moody) <| .call (.create [plain]) <| .call (.create [plain]) <|
    .call (.create [plain]) <| .call (.create [plain]) <| .start 0
  have hbuilt : household.Reached _ := .built hbuilder rfl
  exact ⟨_, .call (.restore _) (.call (.register _) (.update 0 none .single .visit hbuilt))⟩

end Zoo

/-- All four entities are inactive before the second update. The first one is found active and then
inactive again, which puts it behind the others, the second one is found inactive twice and keeps
its place, and the third one is found active twice. On the last one there is no ruling. -/
theorem activity_eq_latest_settled :
    let run := Zoo.settled.updateWith 0 none .single .visit
    let after := run.state.1.context
    Zoo.settled.context.inactive.toList = [0, 1, 3, 2] ∧
    run.rulings = [(0, true), (1, false), (2, true), (0, false), (1, false), (2, true)] ∧
    (after.inactive.contains 0 = true ∧ ¬after.active.contains 0 = true) ∧
    (after.active.contains 2 = true ∧ ¬after.inactive.contains 2 = true) ∧
    after.inactive.contains 3 = true ∧
    after.inactive.ListedBy (Ruling.CameBefore [0, 1, 3, 2] false run.rulings) ∧
    after.active.toList = [2] ∧ after.inactive.toList = [1, 3, 0] := by
  intro run after
  have hbefore : Zoo.settled.context.inactive.toList = [0, 1, 3, 2] := by decide +kernel
  have hrulings : run.rulings =
      [(0, true), (1, false), (2, true), (0, false), (1, false), (2, true)] := by decide +kernel
  have hinactive : Zoo.settled.context.inactive.contains 3 = true := by decide +kernel
  obtain ⟨order, hreached⟩ := Zoo.exists_reached_settled
  obtain ⟨hsides, _, hlisted, _⟩ := activity_eq_latest hreached 0 none .single .visit
  rw [hbefore] at hlisted
  simp only [show (Zoo.settled.updateWith 0 none .single .visit).rulings = _ from hrulings]
    at hsides
  refine ⟨hbefore, hrulings, ⟨(hsides 0).2.mpr (.inl rfl), mt (hsides 0).1.mp (by decide)⟩,
    ⟨(hsides 2).1.mpr rfl, mt (hsides 2).2.mp (by decide)⟩,
    (hsides 3).2.mpr (.inr ⟨rfl, hinactive⟩), hlisted, by decide +kernel, by decide +kernel⟩

end EntityWorld
