import EntityWorld.Binary
import EntityWorld.Field.Value

namespace EntityWorld

inductive IntegerWidth where
  | bits8 | bits16 | bits32 | bits64 | word
deriving DecidableEq

/-- How many bits an integer has. A word is a word of a 64-bit machine. -/
def IntegerWidth.bits : IntegerWidth → Nat
  | bits8 => 8
  | bits16 => 16
  | bits32 => 32
  | bits64 => 64
  | word => 64

structure IntegerType where
  signed : Bool
  width : IntegerWidth
deriving DecidableEq

namespace IntegerType

def least (type : IntegerType) : Int :=
  if type.signed then -(1 <<< (type.width.bits - 1) : Nat) else 0

def greatest (type : IntegerType) : Int :=
  (1 <<< (if type.signed then type.width.bits - 1 else type.width.bits) : Nat) - 1

/-- The integers of a type. -/
abbrev Range (type : IntegerType) : Type :=
  { n : Int // type.least ≤ n ∧ n ≤ type.greatest }

/-- The integer zero, which every type has. -/
def zero (type : IntegerType) : type.Range :=
  ⟨0, by
    obtain ⟨signed, width⟩ := type
    cases signed <;> cases width <;> decide⟩

def name (type : IntegerType) : String :=
  (if type.signed then "i" else "u") ++
    match type.width with
    | .bits8 => "8"
    | .bits16 => "16"
    | .bits32 => "32"
    | .bits64 => "64"
    | .word => "size"

end IntegerType

/-- The types that a field may have. A list or an optional value may hold any
    other type, to any depth. -/
inductive FieldType where
  | bool
  | integer (type : IntegerType)
  | single
  | double
  | char
  | string
  | value
  | option (type : FieldType)
  | list (type : FieldType)
deriving DecidableEq

/-- Why a field cannot be read or set. -/
inductive FieldError where
  | unknownField (component field : String)
  | typeMismatch (expected found : String)
  | outOfRange (number : Int) (type : IntegerType)
  | invalid (component field : String) (cause : FieldError)

def FieldError.message : FieldError → String
  | unknownField component field => s!"Component {component} has no field {field}"
  | typeMismatch expected found => s!"Expected {expected} value, found {found}"
  | outOfRange number type => s!"Value {number} does not fit into {type.name}"
  | invalid component field cause => s!"Field {component}.{field}: {cause.message}"

namespace FieldType

/-- What a field of the type holds. -/
def Carrier : FieldType → Type
  | bool => Bool
  | integer type => type.Range
  | single => Float32
  | double => Float
  | char => Char
  | string => String
  | value => Value
  | option type => Option type.Carrier
  | list type => List type.Carrier

/-- What a field of the type holds unless it is told otherwise. -/
def initial : (type : FieldType) → type.Carrier
  | bool => false
  | integer type => type.zero
  | single => (0 : Float32)
  | double => (0 : Float)
  | char => '\x00'
  | string => ""
  | value => Value.null
  | option _ => none
  | list _ => []

/-- Writes what a field holds as a value. Integers keep their signedness and
    lose their width, and an absent value is written as null. -/
def encode : (type : FieldType) → type.Carrier → Value
  | bool, (b : Bool) => .bool b
  | integer type, n => if type.signed then .int (.ofInt n.1) else .uint (.ofNat n.1.toNat)
  | single, x => .float (widen x)
  | double, (x : Float) => .float x
  | char, (c : Char) => .char c
  | string, (s : String) => .string s
  | value, (v : Value) => v
  | option _, none => .null
  | option type, some x => type.encode x
  | list type, items => .list (items.map type.encode)

/-- The integer of a type that is equal to a given one. -/
def readInteger (type : IntegerType) (n : Int) : Except FieldError type.Range :=
  if h : type.least ≤ n ∧ n ≤ type.greatest then .ok ⟨n, h⟩ else .error (.outOfRange n type)

/-- Reads what a field holds from a value, or reports the first part of it, from left to right, that
    does not fit. Integers are read from both kinds of integers, and null is read as an absent value
    before anything else. -/
def decode : (type : FieldType) → Value → Except FieldError type.Carrier
  | bool, .bool b => .ok b
  | bool, other => .error (.typeMismatch "bool" other.kind)
  | integer type, .int n => readInteger type n.toInt
  | integer type, .uint n => readInteger type n.toNat
  | integer type, other => .error (.typeMismatch type.name other.kind)
  | single, .float x => .ok (narrow x)
  | single, other => .error (.typeMismatch "f32" other.kind)
  | double, .float x => .ok x
  | double, other => .error (.typeMismatch "f64" other.kind)
  | char, .char c => .ok c
  | char, other => .error (.typeMismatch "char" other.kind)
  | string, .string s => .ok s
  | string, other => .error (.typeMismatch "string" other.kind)
  | value, v => .ok v
  | option _, .null => .ok none
  | option type, other => (type.decode other).map some
  | list type, .list items => items.mapM type.decode
  | list _, other => .error (.typeMismatch "list" other.kind)

end FieldType

end EntityWorld
