import EntityWorld.Update.Context

namespace EntityWorld.Script

/-- The ambient states of scripted systems: integers of a few widths, and texts. -/
inductive Scalar where
  | u8 (n : UInt8)
  | u16 (n : UInt16)
  | u32 (n : UInt32)
  | i64 (n : Int64)
  | text (s : String)

namespace Scalar

/-- The type of a state, by which entry points ask for it. -/
def type : Scalar → TypeId
  | u8 _ => { name := "u8" }
  | u16 _ => { name := "u16" }
  | u32 _ => { name := "u32" }
  | i64 _ => { name := "i64" }
  | text _ => { name := "alloc::string::String" }

/-- A state as a number. A text counts its bytes. -/
def toNumber : Scalar → Int64
  | u8 n => .ofNat n.toNat
  | u16 n => .ofNat n.toNat
  | u32 n => .ofNat n.toNat
  | i64 n => n
  | text s => .ofNat s.utf8ByteSize

/-- Assigns a number, of which the low bits are kept, or to a text appends
    another one. -/
def assign (scalar : Scalar) (number : Int64) (more : String) : Scalar :=
  match scalar with
  | u8 _ => u8 number.toUInt64.toUInt8
  | u16 _ => u16 number.toUInt64.toUInt16
  | u32 _ => u32 number.toUInt64.toUInt32
  | i64 _ => i64 number
  | text s => text (s ++ more)

end Scalar

/-- A schema with the given components whose ambient states are scalars. -/
abbrev schema (fields : TypeId → List Field)
    (distinct : ∀ type, ((fields type).map Field.name).Nodup) : Schema where
  fields
  distinct
  State _ := Scalar

end EntityWorld.Script
