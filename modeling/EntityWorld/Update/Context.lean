import EntityWorld.Component
import EntityWorld.EntitySet
import EntityWorld.Update.Tick

namespace EntityWorld

variable {S : Schema}

/-- A state that entry points of a pass may ask for, together with its type. -/
abbrev Ambient (S : Schema) := (type : TypeId) × S.State type

/-- The context of updates: which entities are active or inactive, which ambient states wait for a
    pass of their own, and how many updates were completed. An entity leaves one of the two sets
    when it enters the other. The inactive entities outlast an update, the active ones and the queue
    only last until the next one. -/
structure Context (S : Schema) where
  active : EntitySet := .empty
  inactive : EntitySet := .empty
  queue : List (Ambient S) := []
  tick : Tick := {}

/-- What an entry point sees of the context. -/
structure ContextView where
  tick : Tick
  active : EntitySet
  inactive : EntitySet
  queued : Nat

namespace Context

def empty : Context S := {}

def view (context : Context S) : ContextView :=
  { tick := context.tick
    active := context.active
    inactive := context.inactive
    queued := context.queue.length }

/-- Moves an entity to the set that its latest verdict puts it in. A member
    of that set keeps its place there. -/
def settle (context : Context S) (entity : EntityId) (isActive : Bool) : Context S :=
  if isActive then
    { context with
      active := (context.active.insert entity).2
      inactive := (context.inactive.remove entity).2 }
  else
    { context with
      active := (context.active.remove entity).2
      inactive := (context.inactive.insert entity).2 }

/-- Strikes an entity from both sets. -/
def forget (context : Context S) (entity : EntityId) : Context S :=
  { context with
    active := (context.active.remove entity).2
    inactive := (context.inactive.remove entity).2 }

/-- Queues states behind those that already wait. -/
def enqueue (context : Context S) (states : List (Ambient S)) : Context S :=
  { context with queue := context.queue ++ states }

/-- The state that has waited longest, and the context without it. -/
def dequeue? (context : Context S) : Option (Ambient S × Context S) :=
  match context.queue with
  | [] => none
  | state :: queue => some (state, { context with queue })

/-- Makes the context ready for another update. -/
def reset (context : Context S) : Context S :=
  { context with active := .empty, queue := [] }

/-- Counts a completed update. -/
def advance (context : Context S) : Context S :=
  { context with tick := context.tick.next }

end Context

end EntityWorld
