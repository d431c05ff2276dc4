import EntityWorld.Proofs.EntitySet.Calls

namespace EntityWorld.EntitySet

/-- How many slots nobody stands in. -/
def vacancies (set : EntitySet) : Nat :=
  set.slots.toList.countP Option.isNone

/-- Every slot has a member in it or nobody, so the slots are the members and the vacancies. -/
theorem Valid.size_slots {set : EntitySet} (hset : set.Valid) :
    set.slots.size = set.size + set.vacancies := by
  have hused : set.size = set.slots.toList.countP Option.isSome := by
    rw [hset.size_eq, toList, List.length_filterMap_eq_countP]
    rfl
  have hempty : set.vacancies = set.slots.toList.countP fun slot => ¬slot.isSome = true :=
    List.countP_congr fun slot _ => by simp
  rw [hused, hempty, ← List.length_eq_countP_add_countP, Array.length_toList]

/-- A set in which the index tells exactly where the members stand, and in which the slots, and so
the empty ones among them, are within bounds that its members set. Members leave empty slots behind,
and this says that there are never many more of these than members. -/
structure Tidy (set : EntitySet) : Prop where
  index_iff : ∀ (entity : EntityId) (place : Nat),
    set.index[entity]? = some place ↔ set.slots[place]? = some (some entity)
  slots_le : set.slots.size ≤ 2 * set.size + 32
  vacancies_le : set.vacancies ≤ set.size + 32

/-- In a tidy set index and slots agree, so that all that is known of such sets can be used. -/
theorem Tidy.valid {set : EntitySet} (hset : set.Tidy) : set.Valid :=
  hset.index_iff

/-- The bound on all slots is enough: the one on the empty slots follows by counting. -/
theorem Valid.tidy {set : EntitySet} (hset : set.Valid)
    (hle : set.slots.size ≤ 2 * set.size + 32) : set.Tidy := by
  have hslots := hset.size_slots
  exact ⟨hset, hle, by omega⟩

/-- A newcomer takes a slot of its own, which its membership pays for twice, so the bounds have room
to spare. -/
theorem Tidy.insert {set : EntitySet} (hset : set.Tidy) (entity : EntityId) :
    (set.insert entity).2.Tidy := by
  have hvalid := hset.valid
  by_cases hmem : set.contains entity = true
  · rwa [insert_of_contains hmem]
  · have hsize : (set.insert entity).2.size = set.size + 1 := by
      rw [(hvalid.insert entity).size_eq, hvalid.size_eq, hvalid.toList_insert,
        if_neg (mt hvalid.mem_toList_iff.mp hmem), List.length_append]
      rfl
    have hslots : (set.insert entity).2.slots.size = set.slots.size + 1 := by
      rw [insert_of_not_contains hmem, Array.size_push]
    have hle := hset.slots_le
    exact (hvalid.insert entity).tidy (by omega)

/-- With its slots closed up a set has no more of them than members, and none of them is empty. -/
theorem Valid.tidy_compact {set : EntitySet} (hset : set.Valid) : set.compact.Tidy := by
  have hslots : set.compact.slots.size = set.compact.size := by
    rw [hset.compact.size_eq, toList_compact, ← Array.length_toList, slots_compact, List.length_map]
  exact hset.compact.tidy (by omega)

/-- Slots that are not closed up when a member leaves are few, or half of them are in use. In both
cases the bound holds again with one member less. -/
theorem Tidy.remove {set : EntitySet} (hset : set.Tidy) (entity : EntityId) :
    (set.remove entity).2.Tidy := by
  cases hfound : set.index[entity]? with
  | none => rwa [remove_of_none hfound]
  | some place =>
    have hvacated := hset.valid.vacate hfound
    rw [remove_eq_ite hfound]
    split
    case isTrue => exact hvacated.tidy_compact
    case isFalse hkeeps => exact hvacated.tidy (by omega)

theorem kept_tidy : Kept Tidy where
  empty := Valid.empty.tidy (by decide)
  insert entity hset := hset.insert entity
  remove entity hset := hset.remove entity

end EntityWorld.EntitySet
