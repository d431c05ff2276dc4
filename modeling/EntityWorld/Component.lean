import EntityWorld.Field.Type
import Std.Data.ExtTreeMap.Basic

namespace EntityWorld

/-- What a type is known by. Two types may share a name, and then differ in
    their variant. -/
structure TypeId where
  name : String
  variant : Nat := 0
deriving DecidableEq

/-- Types are ordered by name, byte by byte, and then by variant. -/
instance : Ord TypeId :=
  ⟨fun a b => (compare a.name b.name).then (compare a.variant b.variant)⟩

instance : Std.TransOrd TypeId :=
  inferInstanceAs (Std.TransCmp (compareLex (compareOn TypeId.name) (compareOn TypeId.variant)))

instance : Std.LawfulEqOrd TypeId where
  eq_of_compare {a b} hcompare := by
    obtain ⟨hname, hvariant⟩ := Ordering.then_eq_eq.mp hcompare
    cases a
    cases b
    simp_all

/-- A field of a component type. -/
structure Field where
  name : String
  type : FieldType
  default : type.Carrier := type.initial

/-- What the component types and the ambient state types of a world look like: which fields each
    component type has. No component type has two fields of one name. -/
structure Schema where
  fields : TypeId → List Field
  distinct : ∀ type, ((fields type).map Field.name).Nodup
  State : TypeId → Type

/-- One entry for each of a list of fields, in their order. -/
def Record : List Field → Type
  | [] => Unit
  | field :: fields => field.type.Carrier × Record fields

namespace Record

/-- Every field holds its default. -/
def initial : (fields : List Field) → Record fields
  | [] => ()
  | field :: fields => (field.default, initial fields)

/-- The value in the field of a name, if there is such a field. -/
def get? : (fields : List Field) → Record fields → String → Option Value
  | [], _, _ => none
  | field :: fields, (entry, record), name =>
    if field.name = name then some (field.type.encode entry) else get? fields record name

/-- Sets the field of a name, if there is such a field, to what is read from
    the value. All other fields are left alone. -/
def set? : (fields : List Field) → Record fields → String → Value →
    Option (Except FieldError (Record fields))
  | [], _, _, _ => none
  | field :: fields, (entry, record), name, value =>
    if field.name = name then
      some ((field.type.decode value).map fun entry => (entry, record))
    else
      (set? fields record name value).map fun result => result.map fun record => (entry, record)

/-- The fields and their values in the order in which they are declared. -/
def toList : (fields : List Field) → Record fields → List (String × Value)
  | [], _ => []
  | field :: fields, (entry, record) =>
    (field.name, field.type.encode entry) :: toList fields record

end Record

/-- Sets a field in a record of a component type. The errors name the type
    and the field at fault. -/
def Schema.setField (S : Schema) (type : TypeId) (record : Record (S.fields type))
    (field : String) (value : Value) : Except FieldError (Record (S.fields type)) :=
  match record.set? _ field value with
  | none => .error (.unknownField type.name field)
  | some (.error cause) => .error (.invalid type.name field cause)
  | some (.ok record) => .ok record

/-- A component: its type, and what the fields of that type hold. It carries one entry per field of
    its type, so reading and setting fields cannot change what type it is of. -/
structure Component (S : Schema) where
  type : TypeId
  record : Record (S.fields type)

namespace Component

variable {S : Schema}

/-- The component of a type with every field at its default. -/
def initial (type : TypeId) : Component S :=
  ⟨type, Record.initial (S.fields type)⟩

def name (component : Component S) : String :=
  component.type.name

def get? (component : Component S) (field : String) : Option Value :=
  component.record.get? _ field

/-- The fields and their values in the order in which they are declared. -/
def toList (component : Component S) : List (String × Value) :=
  component.record.toList _

/-- Sets a field. The errors name the type and the field at fault. -/
def set (component : Component S) (field : String) (value : Value) :
    Except FieldError (Component S) :=
  (S.setField component.type component.record field value).map fun record =>
    { component with record }

/-- Sets fields one after another, up to the first that cannot be set. -/
def setAll (component : Component S) (values : List (String × Value)) :
    Except FieldError (Component S) :=
  values.foldlM (fun component entry => component.set entry.1 entry.2) component

/-- The record of a component if it is of the given type. -/
def as? (component : Component S) (type : TypeId) : Option (Record (S.fields type)) :=
  if h : component.type = type then some (h ▸ component.record) else none

/-- The layout of a component for developers. -/
def outline (component : Component S) : Text.Outline :=
  .labelled component.name (component.toList.map fun (field, value) => (field, value.outline))

end Component

end EntityWorld
