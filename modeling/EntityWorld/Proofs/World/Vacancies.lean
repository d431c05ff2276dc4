import EntityWorld.Proofs.EntitySet.Vacancies
import EntityWorld.Proofs.World.Activity

namespace EntityWorld

/-- Whatever calls are made on sets, and however many updates a world goes through, an index tells
exactly where the members of its set stand, there are at most twice as many slots as members and 32
more, and at most 32 more empty slots than members. -/
theorem EntitySet.tidy_of_calls (S : Schema) (σ : Type) :
    (∀ calls : List EntitySet.Call, ∀ set ∈ (Call.runAll .slotted calls []).2, set.Tidy) ∧
    ∀ (world : World S σ) (order : List EntityId), world.Reached order →
      world.context.active.Tidy ∧ world.context.inactive.Tidy := by
  refine ⟨Call.forall_runAll kept_tidy fun hset => hset.valid.tidy_compact, ?_⟩
  intro world order hreached
  have hsides := hreached.forall_side kept_tidy
  exact ⟨hsides true, hsides false⟩

/-- A set that 32 members have come to and left again has as many empty slots as there can be. When
one more has come and left, all of them are closed up. -/
theorem EntitySet.tidy_of_calls_left :
    let coming := (List.range 32).map fun number => Call.insert 0 number.toUInt32
    let leaving := (List.range 32).map fun number => Call.remove 0 number.toUInt32
    let calls := .create :: coming ++ leaving
    let more := calls ++ [.insert 0 32, .remove 0 32]
    (∃ set ∈ (Call.runAll .slotted calls []).2, set.Tidy ∧ set.size = 0 ∧ set.vacancies = 32) ∧
    ∃ set ∈ (Call.runAll .slotted more []).2, set.Tidy ∧ set.size = 0 ∧ set.vacancies = 0 := by
  intro coming leaving calls more
  have htidy := (tidy_of_calls Zoo.schema Unit).1
  have hleft (calls : List EntitySet.Call) {vacancies : Nat}
      (hsets : (Call.runAll .slotted calls []).2.map (fun set => (set.size, set.vacancies)) =
        [(0, vacancies)]) :
      ∃ set ∈ (Call.runAll .slotted calls []).2,
        set.Tidy ∧ set.size = 0 ∧ set.vacancies = vacancies := by
    obtain ⟨set, hset⟩ := List.map_eq_singleton_iff.mp hsets
    have hmem : set ∈ (Call.runAll .slotted calls []).2 := hset.1 ▸ List.mem_singleton_self set
    exact ⟨set, hmem, htidy calls set hmem, congrArg Prod.fst hset.2, congrArg Prod.snd hset.2⟩
  exact ⟨hleft calls (by decide +kernel), hleft more (by decide +kernel)⟩

end EntityWorld
