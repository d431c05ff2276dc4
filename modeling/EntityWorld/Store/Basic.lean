import EntityWorld.Store.Row
import Std.Data.ExtTreeMap.Basic

namespace EntityWorld

variable {S : Schema}

/-- The largest number an entity can have. It is never handed out. -/
def lastEntity : EntityId := 0xffffffff

/-- Entities with their rows, the lists of entities under each key, the type by which to rebuild a
    component of each name, and the next number. Each entity is listed under the key of every
    non-empty subset of its component types, so a look-up by the key of the types that an entry
    point asks for finds every entity that has them all. -/
structure Store (S : Schema) where
  seed : UInt32 := 0
  rows : Std.ExtTreeMap EntityId (Row S) := ∅
  buckets : Std.ExtTreeMap Key (Array EntityId) := ∅
  factories : Std.ExtTreeMap String TypeId := ∅
  nextId : EntityId := 0

namespace Store

/-- The answer of an operation and the store it leaves, also when it fails. -/
abbrev Result (S : Schema) (α : Type) := EStateM.Result Error (Store S) α

def empty (seed : UInt32) : Store S :=
  { seed }

/-- The entities in ascending order. -/
def entities (store : Store S) : List EntityId :=
  store.rows.keys

def size (store : Store S) : Nat :=
  store.rows.size

def contains (store : Store S) (entity : EntityId) : Bool :=
  store.rows.contains entity

def keyOf (store : Store S) (names : List String) : Key :=
  Key.ofNames names store.seed

/-- The entities listed under a key, in the order in which they came there. -/
def bucket? (store : Store S) (key : Key) : Option (Array EntityId) :=
  store.buckets[key]?

/-- Lists an entity under the keys of its row, behind those already there. -/
def enlist (store : Store S) (entity : EntityId) (row : Row S) : Store S :=
  { store with
    buckets := (row.keys store.seed).foldl
      (fun buckets key => buckets.alter key fun bucket => some ((bucket.getD #[]).push entity))
      store.buckets }

/-- Strikes an entity from the lists under the keys of its row. A list that
    becomes empty goes. -/
def delist (store : Store S) (entity : EntityId) (row : Row S) : Store S :=
  { store with
    buckets := (row.keys store.seed).foldl
      (fun buckets key => buckets.alter key fun bucket =>
        (bucket.map fun entities => entities.filter (· != entity)).filter fun entities =>
          !entities.isEmpty)
      store.buckets }

/-- Remembers the types in a row as those to rebuild components by, for the
    names that have no such type yet. -/
def learn (store : Store S) (row : Row S) : Store S :=
  { store with
    factories := row.foldl
      (fun factories component => factories.insertIfNew component.name component.type)
      store.factories }

/-- Adds a row under a number that has none. -/
def insertRow (store : Store S) (entity : EntityId) (row : Row S) : Store S :=
  let store := (store.learn row).enlist entity row
  { store with rows := store.rows.insert entity row }

/-- Takes away the row under a number, if it has one. -/
def eraseRow (store : Store S) (entity : EntityId) : Store S :=
  match store.rows[entity]? with
  | none => store
  | some row =>
    let store := store.delist entity row
    { store with rows := store.rows.erase entity }

/-- Creates an entity from components in any order, under the next number.
    That the numbers are used up counts before any fault of the components. -/
def create (store : Store S) (components : List (Component S)) : Result S EntityId :=
  if store.nextId = lastEntity then
    .error .idsExhausted store
  else
    match Row.ofList components with
    | .error error => .error error store
    | .ok row =>
      let entity := store.nextId
      .ok entity { store.insertRow entity row with nextId := entity + 1 }

/-- Creates an entity under a given number, in place of one that has it. All
    numbers handed out later are larger. -/
def place (store : Store S) (components : List (Component S)) (entity : EntityId) :
    Result S Unit :=
  match Row.ofList components with
  | .error error => .error error store
  | .ok row =>
    let next := if entity = lastEntity then lastEntity else entity + 1
    .ok () { (store.eraseRow entity).insertRow entity row with nextId := max store.nextId next }

/-- Removes an entity, and answers the components it had. -/
def remove (store : Store S) (entity : EntityId) : Result S (Row S) :=
  match store.rows[entity]? with
  | none => .error (.unknownEntity entity) store
  | some row => .ok row (store.eraseRow entity)

/-- The components of an entity. -/
def row (store : Store S) (entity : EntityId) : Except Error (Row S) :=
  match store.rows[entity]? with
  | none => .error (.unknownEntity entity)
  | some row => .ok row

/-- The component of a type that an entity has. -/
def get (store : Store S) (entity : EntityId) (type : TypeId) :
    Except Error (Record (S.fields type)) := do
  match (← store.row entity).find? type with
  | none => throw (.missingComponent entity type.name)
  | some record => pure record

/-- The component of a type that an entity has, or else the initial one. -/
def getOrInitial (store : Store S) (entity : EntityId) (type : TypeId) :
    Except Error (Record (S.fields type)) := do
  return ((← store.row entity).find? type).getD (Record.initial _)

def has (store : Store S) (entity : EntityId) (type : TypeId) : Bool :=
  (store.rows[entity]?.map fun row => row.contains type).getD false

/-- Overwrites the component of the same type. Without one the answer is
    `false`, and nothing changes. -/
def set (store : Store S) (entity : EntityId) (component : Component S) : Result S Bool :=
  match store.rows[entity]? with
  | none => .error (.unknownEntity entity) store
  | some row =>
    if row.contains component.type then
      .ok true { store with rows := store.rows.insert entity (row.replace component) }
    else
      .ok false store

/-- Changes the component of a type in any way, and answers what it has become. -/
def modify (store : Store S) (entity : EntityId) (type : TypeId)
    (change : Record (S.fields type) → Record (S.fields type)) :
    Result S (Record (S.fields type)) :=
  match store.get entity type with
  | .error error => .error error store
  | .ok record =>
    match store.set entity ⟨type, change record⟩ with
    | .error error store => .error error store
    | .ok _ store => .ok (change record) store

/-- Sets one field of the component of a type, and answers the component. -/
def setField (store : Store S) (entity : EntityId) (type : TypeId) (field : String)
    (value : Value) : Result S (Record (S.fields type)) :=
  match store.get entity type with
  | .error error => .error error store
  | .ok record =>
    match S.setField type record field value with
    | .error cause => .error (.field cause) store
    | .ok changed => store.modify entity type fun _ => changed

/-- Makes a type the one by which to rebuild components of its name. -/
def register (store : Store S) (type : TypeId) : Store S :=
  { store with factories := store.factories.insert type.name type }

/-- A new component of a name. -/
def build? (store : Store S) (name : String) : Option (Component S) :=
  store.factories[name]?.map Component.initial

/-- Changes the seed of all keys, and lists every entity afresh, in ascending
    order. The same seed leaves the lists as they are. -/
def reseed (store : Store S) (seed : UInt32) : Store S :=
  if seed = store.seed then
    store
  else
    store.rows.foldl (fun store entity row => store.enlist entity row)
      { store with seed, buckets := ∅ }

end Store

end EntityWorld
