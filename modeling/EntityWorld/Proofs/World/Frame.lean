import EntityWorld.Proofs.Store.Placement
import EntityWorld.Proofs.Update.Frame
import EntityWorld.Proofs.Update.Writes
import EntityWorld.World.Basic

namespace EntityWorld

variable {S : Schema} {σ : Type}

theorem Store.SameLayout.entities {before after : Store S} (hsame : before.SameLayout after) :
    after.entities = before.entities := by
  have hperm : after.entities.Perm before.entities := by
    refine (List.perm_ext_iff_of_nodup after.nodup_entities before.nodup_entities).mpr fun entity => ?_
    rw [mem_entities, mem_entities, mem_rows_congr (hsame.types entity)]
  exact hperm.eq_of_pairwise (fun _ _ _ _ => UInt32.le_antisymm) after.pairwise_entities
    before.pairwise_entities

/-- Whatever systems do and however an update ends, it leaves the systems of the world, their plan
and the configuration alone, and of the store the entities, the types in each row, the lists under
the keys, the types to rebuild components by, the next number and the seed. A component differs
afterwards only if an invocation of the update was on its entity, by an entry point that declares
its type as written. -/
theorem frame_of_updateWith (world : World S σ) (limit : Nat) (ambient : Option (Ambient S))
    (strategy : Strategy) (inactive : InactiveHandling) :
    let run := world.updateWith limit ambient strategy inactive
    let after := run.state.1
    (after.systems = world.systems ∧ after.plan = world.plan ∧ after.config = world.config) ∧
    after.store.entities = world.store.entities ∧
    world.store.SameLayout after.store ∧
    ∀ (entity : EntityId) (type : TypeId),
      after.store.get entity type ≠ world.store.get entity type →
        ∃ call ∈ run.invocations, Invocation.Writes world.systems entity type call := by
  intro run after
  let scene : Scene S σ :=
    { store := world.store, context := world.context, data := world.data, ambient }
  have hlayout : world.store.SameLayout after.store :=
    Engine.sameLayout_update world.systems world.plan limit strategy inactive scene
  have hwrites : ∀ entity type, after.store.get entity type = world.store.get entity type ∨
      ∃ call ∈ run.invocations, Invocation.Writes world.systems entity type call :=
    Engine.writesDeclared_update world.systems world.plan inactive limit strategy scene
  exact ⟨⟨rfl, rfl, rfl⟩, hlayout.entities, hlayout,
    fun entity type hchanged => (hwrites entity type).resolve_left hchanged⟩

end EntityWorld
