import EntityWorld.EntitySet
import EntityWorld.Proofs.Traversal
import Mathlib.Data.List.Basic

namespace EntityWorld.EntitySet

/-- The index sends each member to the one slot that it stands in, and no other slot is in use. This
is what lets the list of members and the look-up speak of the same set. -/
def Valid (set : EntitySet) : Prop :=
  ∀ (entity : EntityId) (place : Nat),
    set.index[entity]? = some place ↔ set.slots[place]? = some (some entity)

/-- The set of nobody has no slot in use and no place recorded, so the two agree from the start. -/
theorem Valid.empty : EntitySet.empty.Valid := by
  simp [Valid, EntitySet.empty]

@[simp] theorem toList_empty : EntitySet.empty.toList = [] := rfl

theorem mem_toList_iff_getElem? {set : EntitySet} {entity : EntityId} :
    entity ∈ set.toList ↔ ∃ place : Nat, set.slots[place]? = some (some entity) := by
  simp [toList, Array.mem_iff_getElem?]

/-- A member is one that the index knows. Only the index is asked when a set is looked up, and only
the slots when it is gone through, so this needs the two to agree. -/
theorem Valid.mem_toList_iff {set : EntitySet} (hset : set.Valid) {entity : EntityId} :
    entity ∈ set.toList ↔ set.contains entity = true := by
  simp only [mem_toList_iff_getElem?, ← hset entity]
  rw [contains, Std.ExtTreeMap.contains_eq_isSome_getElem?, Option.isSome_iff_exists]

theorem Valid.index_eq_none_iff {set : EntitySet} (hset : set.Valid) {entity : EntityId} :
    set.index[entity]? = none ↔ entity ∉ set.toList := by
  rw [hset.mem_toList_iff, contains, Std.ExtTreeMap.contains_eq_isSome_getElem?]
  simp

/-- No member is listed twice: two slots with the same member would both be its one place in the
index. -/
theorem Valid.nodup_toList {set : EntitySet} (hset : set.Valid) : set.toList.Nodup := by
  unfold toList List.Nodup
  rw [List.pairwise_filterMap, List.pairwise_iff_getElem]
  intro i j hi hj hlt entity hentity other hother heq
  have hfirst := (hset entity i).mpr (Array.getElem?_eq_some_iff.mpr ⟨hi, hentity⟩)
  have hsecond := (hset other j).mpr (Array.getElem?_eq_some_iff.mpr ⟨hj, hother⟩)
  rw [heq, hsecond] at hfirst
  have hplace := Option.some.inj hfirst
  omega

/-- A member that comes in again is left where it stands, with the whole set. -/
theorem insert_of_contains {set : EntitySet} {entity : EntityId}
    (hmem : set.contains entity = true) : (set.insert entity).2 = set := by
  rw [insert, if_pos hmem]

/-- A newcomer takes a fresh slot behind all others; an empty slot in the middle is never used again
before the slots are closed up. -/
theorem insert_of_not_contains {set : EntitySet} {entity : EntityId}
    (hnot : ¬set.contains entity = true) :
    (set.insert entity).2 =
      { index := set.index.insert entity set.slots.size
        slots := set.slots.push (some entity) } := by
  rw [insert, if_neg hnot]

/-- No member stands behind the last slot, so the slot that a newcomer takes is recorded for nobody
else. -/
theorem Valid.lt_size {set : EntitySet} (hset : set.Valid) {entity : EntityId} {place : Nat}
    (hfound : set.index[entity]? = some place) : place < set.slots.size :=
  (Array.getElem?_eq_some_iff.mp ((hset entity place).mp hfound)).1

theorem Valid.insert {set : EntitySet} (hset : set.Valid) (entity : EntityId) :
    (set.insert entity).2.Valid := by
  by_cases hmem : set.contains entity = true
  · rwa [insert_of_contains hmem]
  · rw [insert_of_not_contains hmem]
    intro other place
    have hnone := hset.index_eq_none_iff.mpr (mt hset.mem_toList_iff.mp hmem)
    rw [Std.ExtTreeMap.getElem?_insert, Array.getElem?_push]
    by_cases hplace : place = set.slots.size
    · subst hplace
      have hlater : set.index[other]? ≠ some set.slots.size := fun hfound =>
        Nat.lt_irrefl _ (hset.lt_size hfound)
      by_cases heq : entity = other <;> simp [heq, hlater]
    · rw [if_neg hplace, ← hset other place]
      by_cases heq : entity = other
      · subst heq
        simp [hnone, Ne.symm hplace]
      · simp [heq]

/-- A newcomer comes behind all members, and a member that comes in again keeps its place: the order
of a set is the order of arrival. -/
theorem Valid.toList_insert {set : EntitySet} (hset : set.Valid) (entity : EntityId) :
    (set.insert entity).2.toList =
      if entity ∈ set.toList then set.toList else set.toList ++ [entity] := by
  by_cases hmem : entity ∈ set.toList
  · rw [if_pos hmem, insert_of_contains (hset.mem_toList_iff.mp hmem)]
  · rw [if_neg hmem, insert_of_not_contains (mt hset.mem_toList_iff.mpr hmem)]
    simp [toList]

/-- A set without a member, its slots left as they are. This is what a removal does before it looks
whether the slots are worth closing up. -/
def vacate (set : EntitySet) (entity : EntityId) (place : Nat) : EntitySet :=
  { index := set.index.erase entity, slots := set.slots.setIfInBounds place none }

theorem remove_of_none {set : EntitySet} {entity : EntityId}
    (hnone : set.index[entity]? = none) : (set.remove entity).2 = set := by
  rw [remove, hnone]

/-- A member leaves an empty slot behind, and then the slots are closed up if there are more than
32 and fewer than half of them are in use. The thresholds matter for nothing but the number of
slots. -/
theorem remove_eq_ite {set : EntitySet} {entity : EntityId} {place : Nat}
    (hfound : set.index[entity]? = some place) :
    let rest := set.vacate entity place
    (set.remove entity).2 =
      if 32 < rest.slots.size ∧ rest.size < rest.slots.size / 2 then rest.compact else rest := by
  rw [remove, hfound]
  rfl

/-- Where the thresholds do not matter, a removal is a slot left empty with or without closing
up. -/
theorem remove_of_some {set : EntitySet} {entity : EntityId} {place : Nat}
    (hfound : set.index[entity]? = some place) :
    (set.remove entity).2 = set.vacate entity place ∨
      (set.remove entity).2 = (set.vacate entity place).compact := by
  rw [remove_eq_ite hfound]
  split
  · exact .inr rfl
  · exact .inl rfl

/-- Emptying the slot of a member and forgetting its place go together, and the places of all others
still hold. -/
theorem Valid.vacate {set : EntitySet} (hset : set.Valid) {entity : EntityId} {place : Nat}
    (hfound : set.index[entity]? = some place) : (set.vacate entity place).Valid := by
  intro other at_
  rw [EntitySet.vacate, Std.ExtTreeMap.getElem?_erase, Array.getElem?_setIfInBounds]
  by_cases hplace : place = at_
  · subst hplace
    have hother : entity ≠ other → set.index[other]? ≠ some place := by
      intro hne hsecond
      have hslot := (hset entity place).mp hfound
      rw [(hset other place).mp hsecond] at hslot
      exact hne (Option.some.inj (Option.some.inj hslot)).symm
    by_cases heq : entity = other
    · simp [heq]
    · simp [heq, hother heq, hset.lt_size hfound]
  · rw [if_neg hplace, ← hset other at_]
    by_cases heq : entity = other
    · subst heq
      simp [hfound, hplace]
    · simp [heq]

/-- An emptied slot takes its member out of the list, which had it once, and moves nobody else. The
slots are split at the place, and those before it do not have the member. -/
theorem Valid.toList_vacate {set : EntitySet} (hset : set.Valid) {entity : EntityId} {place : Nat}
    (hfound : set.index[entity]? = some place) :
    (set.vacate entity place).toList = set.toList.erase entity := by
  have hslot : set.slots.toList[place]? = some (some entity) := by
    rw [Array.getElem?_toList]
    exact (hset entity place).mp hfound
  obtain ⟨hlt, hget⟩ := List.getElem?_eq_some_iff.mp hslot
  have hsplit : set.slots.toList =
      set.slots.toList.take place ++ some entity :: set.slots.toList.drop (place + 1) := by
    rw [← hget, List.getElem_cons_drop, List.take_append_drop]
  have hlist : set.toList = (set.slots.toList.take place).filterMap id ++
      entity :: (set.slots.toList.drop (place + 1)).filterMap id := by
    rw [toList, hsplit, List.filterMap_append, ← hsplit]
    rfl
  have hnodup := hset.nodup_toList
  rw [hlist] at hnodup
  have hbefore : entity ∉ (set.slots.toList.take place).filterMap id := fun hmem =>
    (List.nodup_append.mp hnodup).2.2 entity hmem entity List.mem_cons_self rfl
  rw [hlist, List.erase_append_right _ hbefore, List.erase_cons_head, toList, EntitySet.vacate,
    Array.toList_setIfInBounds, List.set_eq_take_append_cons_drop, if_pos hlt,
    List.filterMap_append]
  rfl

/-- Numbering members afresh tells for each of them where it stands, and leaves the rest alone. The
induction runs over any index and any first number, since both grow along the list. -/
theorem getElem?_foldl_zipIdx {members : List EntityId} (hnodup : members.Nodup)
    (index : Std.ExtTreeMap EntityId Nat) (start : Nat) (entity : EntityId) :
    ((members.zipIdx start).foldl (fun index place => index.insert place.1 place.2)
        index)[entity]? =
      if entity ∈ members then some (start + members.idxOf entity) else index[entity]? := by
  induction members generalizing index start with
  | nil => simp
  | cons member members ih =>
    rw [List.nodup_cons] at hnodup
    rw [List.zipIdx_cons, List.foldl_cons, ih hnodup.2, Std.ExtTreeMap.getElem?_insert]
    by_cases heq : member = entity
    · subst heq
      simp [hnodup.1]
    · simp [heq, Ne.symm heq, Nat.add_assoc, Nat.add_comm 1]

/-- Closed up, the slots are the members in their order with nothing in between. -/
theorem slots_compact (set : EntitySet) : set.compact.slots.toList = set.toList.map some := by
  rw [compact, toList, Array.toList_filter]
  induction set.slots.toList with
  | nil => rfl
  | cons slot slots ih => cases slot <;> simp [ih]

/-- Closing up the slots cannot be seen in the list of members, so it may happen whenever the set
likes. -/
theorem toList_compact (set : EntitySet) : set.compact.toList = set.toList := by
  rw [toList, slots_compact, List.filterMap_map]
  simp

/-- The fresh numbers are the places in the closed-up slots, so index and slots agree once more.
Both are read off the list of members, which has nobody twice. -/
theorem Valid.compact {set : EntitySet} (hset : set.Valid) : set.compact.Valid := by
  intro entity place
  rw [← Array.getElem?_toList, slots_compact, List.getElem?_map, EntitySet.compact,
    getElem?_foldl_zipIdx hset.nodup_toList]
  by_cases hmem : entity ∈ set.toList
  · rw [if_pos hmem, Nat.zero_add]
    constructor
    · intro hplace
      rw [← Option.some.inj hplace, List.getElem?_idxOf hmem]
      rfl
    · intro hplace
      obtain ⟨found, hfound, heq⟩ := Option.map_eq_some_iff.mp hplace
      obtain ⟨hlt, rfl⟩ := List.getElem?_eq_some_iff.mp hfound
      rw [← Option.some.inj heq, hset.nodup_toList.idxOf_getElem]
  · rw [if_neg hmem, hset.index_eq_none_iff.mpr hmem]
    refine iff_of_false nofun fun hplace => hmem ?_
    obtain ⟨found, hfound, heq⟩ := Option.map_eq_some_iff.mp hplace
    exact Option.some.inj heq ▸ List.mem_of_getElem? hfound

/-- A member that leaves is struck out, and all others stay in their order, whether or not the slots
were closed up on the way. -/
theorem Valid.toList_remove {set : EntitySet} (hset : set.Valid) (entity : EntityId) :
    (set.remove entity).2.toList = set.toList.erase entity := by
  cases hfound : set.index[entity]? with
  | none =>
    rw [remove_of_none hfound, List.erase_of_not_mem (hset.index_eq_none_iff.mp hfound)]
  | some place =>
    rw [← hset.toList_vacate hfound]
    rcases remove_of_some hfound with heq | heq
    · rw [heq]
    · rw [heq, toList_compact]

/-- Leaving keeps the index in step with the slots, whether or not they are closed up, and also if
nobody left. -/
theorem Valid.remove {set : EntitySet} (hset : set.Valid) (entity : EntityId) :
    (set.remove entity).2.Valid := by
  cases hfound : set.index[entity]? with
  | none => rwa [remove_of_none hfound]
  | some place =>
    rcases remove_of_some hfound with heq | heq
    · exact heq ▸ hset.vacate hfound
    · exact heq ▸ (hset.vacate hfound).compact

/-- What is true of the set of nobody, and stays true when an entity comes in and when one leaves.
Every set of a running program is built by these three, so such a property holds of all of them. -/
structure Kept (P : EntitySet → Prop) : Prop where
  empty : P .empty
  insert {set : EntitySet} (entity : EntityId) : P set → P (set.insert entity).2
  remove {set : EntitySet} (entity : EntityId) : P set → P (set.remove entity).2

/-- Index and slots agree in every set that is built by coming in and leaving, which are all sets
there are in a running program. -/
theorem kept_valid : Kept Valid where
  empty := .empty
  insert entity hset := hset.insert entity
  remove entity hset := hset.remove entity

/-- One who comes in is a member, whether a newcomer or not. This needs no agreement of index and
slots, and neither do the next three: they speak of the index alone. -/
@[simp] theorem contains_insert_self (set : EntitySet) (entity : EntityId) :
    (set.insert entity).2.contains entity = true := by
  by_cases hmem : set.contains entity = true
  · rwa [insert_of_contains hmem]
  · rw [insert_of_not_contains hmem]
    simp [contains]

/-- Nobody leaves when another comes in. The index gains an entry at most. -/
theorem contains_insert_of_contains {set : EntitySet} {other : EntityId}
    (hother : set.contains other = true) (entity : EntityId) :
    (set.insert entity).2.contains other = true := by
  by_cases hmem : set.contains entity = true
  · rwa [insert_of_contains hmem]
  · rw [insert_of_not_contains hmem]
    rw [contains] at hother ⊢
    simp [hother]

/-- Closing up the slots drops nobody from the look-up, not even one whose slot is lost. -/
theorem contains_compact_of_contains {set : EntitySet} {entity : EntityId}
    (hmem : set.contains entity = true) : set.compact.contains entity = true := by
  rw [contains, compact]
  rw [contains] at hmem
  -- Numbering afresh writes to the index, and takes nothing out of it.
  generalize set.toList.zipIdx = places
  generalize set.index = index at hmem
  induction places generalizing index with
  | nil => exact hmem
  | cons place places ih =>
    apply ih
    simp [hmem]

/-- A member stays when another leaves, though its place may be another one after closing up. -/
theorem contains_remove_of_ne {set : EntitySet} {entity other : EntityId} (hne : other ≠ entity)
    (hother : set.contains other = true) : (set.remove entity).2.contains other = true := by
  cases hfound : set.index[entity]? with
  | none => rwa [remove_of_none hfound]
  | some place =>
    have hvacated : (set.vacate entity place).contains other = true := by
      rw [contains, vacate]
      rw [contains] at hother
      simp [hother, hne.symm]
    rcases remove_of_some hfound with heq | heq
    · rwa [heq]
    · rw [heq]
      exact contains_compact_of_contains hvacated

/-- After a removal the members are those from before but the one that left. Here index and slots
have to agree: closing up reads the members off the slots. -/
theorem Valid.contains_remove_iff {set : EntitySet} (hset : set.Valid) {entity other : EntityId} :
    (set.remove entity).2.contains other = true ↔ other ≠ entity ∧ set.contains other = true := by
  rw [← (hset.remove entity).mem_toList_iff, hset.toList_remove, hset.nodup_toList.mem_erase_iff,
    hset.mem_toList_iff]

end EntityWorld.EntitySet
