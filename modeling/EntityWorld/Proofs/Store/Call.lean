import EntityWorld.Store.Snapshot
import EntityWorld.Zoo

namespace EntityWorld

variable {S : Schema}

/-- The state that an operation leaves, whatever its answer. -/
def stateOf {ε τ α : Type} : EStateM.Result ε τ α → τ
  | .ok _ state => state
  | .error _ state => state

@[simp] theorem stateOf_ok {ε τ α : Type} (answer : α) (state : τ) :
    stateOf (.ok answer state : EStateM.Result ε τ α) = state := rfl

@[simp] theorem stateOf_error {ε τ α : Type} (error : ε) (state : τ) :
    stateOf (.error error state : EStateM.Result ε τ α) = state := rfl

namespace Store

/-- An operation on a store that may change it, with its arguments. With calls as data, "any
sequence of operations" is a list. -/
inductive Call (S : Schema) where
  | create (components : List (Component S))
  | place (components : List (Component S)) (entity : EntityId)
  | remove (entity : EntityId)
  | set (entity : EntityId) (component : Component S)
  | modify (entity : EntityId) (type : TypeId)
      (change : Record (S.fields type) → Record (S.fields type))
  | setField (entity : EntityId) (type : TypeId) (field : String) (value : Value)
  | register (type : TypeId)
  | reseed (seed : UInt32)
  | restore (snapshot : Snapshot)

namespace Call

/-- What a call answers unless it fails. -/
def Answer : Call S → Type
  | create _ => EntityId
  | place _ _ => Unit
  | remove _ => Row S
  | set _ _ => Bool
  | modify _ type _ => Record (S.fields type)
  | setField _ type _ _ => Record (S.fields type)
  | register _ => Unit
  | reseed _ => Unit
  | restore _ => Unit

/-- What a call answers, or the error that it fails with, and the store that it leaves. -/
def result (store : Store S) : (call : Call S) → Result S call.Answer
  | create components => store.create components
  | place components entity => store.place components entity
  | remove entity => store.remove entity
  | set entity component => store.set entity component
  | modify entity type change => store.modify entity type change
  | setField entity type field value => store.setField entity type field value
  | register type => .ok () (store.register type)
  | reseed seed => .ok () (store.reseed seed)
  | restore snapshot => store.restore snapshot

/-- The store that a call leaves, also when it fails. -/
def run (call : Call S) (store : Store S) : Store S :=
  stateOf (call.result store)

/-- The store that calls leave when they are made one after another. -/
def runAll : List (Call S) → Store S → Store S
  | [], store => store
  | call :: calls, store => runAll calls (call.run store)

/-- Takes an entity out of an order, and adds it at the end. An entity that is placed again has its
turn after all others. -/
def toEnd (order : List EntityId) (entity : EntityId) : List EntityId :=
  order.erase entity ++ [entity]

/-- What becomes of the order in which the live entities were last placed. A call that fails leaves
it alone. -/
def reorder (store : Store S) (order : List EntityId) : Call S → List EntityId
  | create components =>
    match store.create components with
    | .ok entity _ => order ++ [entity]
    | .error _ _ => order
  | place components entity =>
    match store.place components entity with
    | .ok _ _ => toEnd order entity
    | .error _ _ => order
  | remove entity =>
    match store.remove entity with
    | .ok _ _ => order.erase entity
    | .error _ _ => order
  | restore snapshot =>
    match store.restore snapshot with
    | .ok _ _ => snapshot.keys.foldl toEnd order
    | .error _ _ => order
  | reseed seed =>
    if seed = store.seed then order else sortBy (fun a b => decide (a ≤ b)) order
  | set _ _ | modify _ _ _ | setField _ _ _ _ | register _ => order

/-- The order in which the live entities were last placed, after some calls on a store with a given
order. -/
def placement : List (Call S) → Store S → List EntityId → List EntityId
  | [], _, order => order
  | call :: calls, store, order => placement calls (call.run store) (call.reorder store order)

end Call

/-- A store is reachable if calls lead to it from a store without entities, whatever its seed. -/
def Reachable (store : Store S) : Prop :=
  ∃ (seed : UInt32) (calls : List (Call S)), Call.runAll calls (.empty seed) = store

/-- What a call keeps, and what holds of a store without entities, holds of every store with its
order of placement that calls lead to. -/
theorem Call.runAll_induction (P : Store S → List EntityId → Prop)
    (hcall : ∀ store order (call : Call S), P store order →
      P (call.run store) (call.reorder store order))
    (calls : List (Call S)) {store : Store S} {order : List EntityId} (hstart : P store order) :
    P (runAll calls store) (placement calls store order) := by
  induction calls generalizing store order with
  | nil => exact hstart
  | cons call calls ih => exact ih (hcall store order call hstart)

end Store

/-- A component with all its fields at their defaults. -/
def Zoo.plain : Component Zoo.schema :=
  .initial { name := "zoo::A" }

/-- A reachable store in which one entity has one component. -/
def Zoo.lone : Store Zoo.schema :=
  Store.Call.runAll [.create [plain]] (.empty 7)

end EntityWorld
