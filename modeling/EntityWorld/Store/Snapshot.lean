import EntityWorld.Store.Basic

namespace EntityWorld

variable {S : Schema}

/-- The values of fields by name. -/
abbrev ComponentSnapshot := Std.ExtTreeMap String Value

/-- The fields of components by the names of their types. -/
abbrev RowSnapshot := Std.ExtTreeMap String ComponentSnapshot

/-- The components of entities as values by entity, type name and field name. -/
abbrev Snapshot := Std.ExtTreeMap EntityId RowSnapshot

/-- The fields of a component. -/
def Component.snapshot (component : Component S) : ComponentSnapshot :=
  component.toList.foldl (fun fields entry => fields.insert entry.1 entry.2) ∅

/-- The components in a row. Of two types of one name the later one counts. -/
def Row.snapshot (row : Row S) : RowSnapshot :=
  row.foldl (fun components component => components.insert component.name component.snapshot) ∅

namespace Store

def snapshotOf (store : Store S) (entity : EntityId) : Except Error RowSnapshot :=
  (store.row entity).map Row.snapshot

/-- Takes down all entities. -/
def snapshot (store : Store S) : Snapshot :=
  store.rows.map fun _ row => row.snapshot

/-- Builds the component of a name with the given fields, in ascending order
    of their names. The other fields have their defaults. -/
def rebuild (store : Store S) (name : String) (fields : ComponentSnapshot) :
    Except Error (Component S) :=
  match store.build? name with
  | none => .error (.unknownComponent name)
  | some component => (component.setAll fields.toList).mapError .field

/-- Builds the components of all entities in a snapshot, in ascending order of
    entity and of name. -/
def buildRows (store : Store S) (snapshot : Snapshot) :
    Except Error (List (EntityId × List (Component S))) :=
  snapshot.toList.mapM fun (entity, components) => do
    let row ← components.toList.mapM fun (name, fields) => store.rebuild name fields
    return (entity, row)

/-- Places entities one after another, up to the first that cannot be. -/
def placeAll (store : Store S) : List (EntityId × List (Component S)) → Result S Unit
  | [] => .ok () store
  | (entity, components) :: rest =>
    match store.place components entity with
    | .error error store => .error error store
    | .ok () store => store.placeAll rest

/-- Sets every entity in a snapshot back to its components there. Entities that are not in the
    snapshot stay as they are. Every component listed is built before the store is touched, so a
    snapshot that does not fit changes nothing. -/
def restore (store : Store S) (snapshot : Snapshot) : Result S Unit :=
  match store.buildRows snapshot with
  | .error error => .error error store
  | .ok rows => store.placeAll rows

end Store

end EntityWorld
