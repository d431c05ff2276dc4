import Std.Data.ExtTreeMap.Basic

namespace EntityWorld

/-- What an entity is known by. Numbers are handed out in ascending order. -/
abbrev EntityId := UInt32

/-- A set of entities that remembers the order in which its members came in. `index` tells in which
    of the `slots` each member stands. Members stand in the order of their arrival, between slots
    that earlier members have left. -/
structure EntitySet where
  index : Std.ExtTreeMap EntityId Nat := ∅
  slots : Array (Option EntityId) := #[]

namespace EntitySet

def empty : EntitySet := {}

/-- The members in the order of their arrival. -/
def toList (set : EntitySet) : List EntityId :=
  set.slots.toList.filterMap id

def size (set : EntitySet) : Nat :=
  set.index.size

def isEmpty (set : EntitySet) : Bool :=
  set.index.isEmpty

def contains (set : EntitySet) (entity : EntityId) : Bool :=
  set.index.contains entity

/-- Closes the gaps and numbers the members afresh. The members and their
    order stay the same. -/
def compact (set : EntitySet) : EntitySet :=
  { index := set.toList.zipIdx.foldl (fun index place => index.insert place.1 place.2) set.index
    slots := set.slots.filter Option.isSome }

/-- Adds a newcomer behind all members. A member keeps its place, and the
    answer is whether the entity was a newcomer. -/
def insert (set : EntitySet) (entity : EntityId) : Bool × EntitySet :=
  if set.contains entity then
    (false, set)
  else
    let ⟨index, slots⟩ := set
    (true, ⟨index.insert entity slots.size, slots.push (some entity)⟩)

/-- Takes a member out, and answers whether the entity was one. A row of more
    than 32 slots with less than half of them in use is closed up. -/
def remove (set : EntitySet) (entity : EntityId) : Bool × EntitySet :=
  match set.index[entity]? with
  | none => (false, set)
  | some place =>
    let rest : EntitySet :=
      { index := set.index.erase entity, slots := set.slots.setIfInBounds place none }
    (true, if 32 < rest.slots.size ∧ rest.size < rest.slots.size / 2 then rest.compact else rest)

end EntitySet

end EntityWorld
