import EntityWorld.Error
import EntityWorld.Subsets

namespace EntityWorld

variable {S : Schema}

/-- The components of an entity, ordered by their types. There is at most one component of each
    type, so a row is a partial map from types to components. -/
abbrev Row (S : Schema) := List (Component S)

namespace Row

/-- The first type that stands twice in a row next to itself. In an ordered
    row that finds every type with more than one component. -/
def duplicate? : Row S → Option TypeId
  | first :: second :: row =>
    if first.type = second.type then some first.type else duplicate? (second :: row)
  | _ => none

/-- Orders components by their types, of which none may occur twice. -/
def ofList (components : List (Component S)) : Except Error (Row S) :=
  let row := sortBy (fun a b => (compare a.type b.type).isLE) components
  match duplicate? row with
  | some type => .error (.duplicateComponent type.name)
  | none => .ok row

/-- The record of the component of a type. -/
def find? (row : Row S) (type : TypeId) : Option (Record (S.fields type)) :=
  row.findSome? fun component => component.as? type

def contains (row : Row S) (type : TypeId) : Bool :=
  row.any fun component => component.type = type

/-- Puts a component in the place of the one of the same type. -/
def replace (row : Row S) (component : Component S) : Row S :=
  match row with
  | [] => []
  | first :: row =>
    if first.type = component.type then component :: row else first :: replace row component

/-- The keys of all non-empty subsets of the types in a row. Subsets with the
    same key each count. -/
def keys (row : Row S) (seed : UInt32) : List Key :=
  (subsets (row.map fun component => Key.ofName component.name seed)).map fun keys =>
    keys.foldl Key.combine Key.identity

end Row

end EntityWorld
