import EntityWorld.Script.Scalar

namespace EntityWorld.Zoo

def signed (width : IntegerWidth) : FieldType :=
  .integer { signed := true, width }

def unsigned (width : IntegerWidth) : FieldType :=
  .integer { signed := false, width }

/-- A component type with the given fields. -/
def entry (name : String) (fields : List Field) : TypeId × List Field :=
  ({ name }, fields)

/-- A component type that holds a single thing, known by its position. -/
def wrapper (name : String) (type : FieldType) : TypeId × List Field :=
  entry name [{ name := "0", type }]

/-- Of the two types of this name the second one. -/
def secondTwin : TypeId where
  name := "zoo::_::Twin"
  variant := 1

/-- Every component type with its fields, which are of every kind. -/
def types : List (TypeId × List Field) :=
  [ wrapper "zoo::A" (unsigned .bits32),
    wrapper "zoo::deep::A" (unsigned .bits32),
    wrapper "zoo::B" (signed .bits64),
    wrapper "zoo::Counter" (unsigned .bits8),
    wrapper "zoo::Ab" (unsigned .bits8),
    wrapper "zoo::A2" (unsigned .bits8),
    wrapper "zoo::alpha" (unsigned .bits8),
    wrapper "zoo::Ünit" (unsigned .bits8),
    entry "zoo::Position" [{ name := "x", type := .single }, { name := "y", type := .single }],
    entry "zoo::Velocity" [{ name := "x", type := .single }, { name := "y", type := .single }],
    wrapper "zoo::Log" (.list .string),
    wrapper "zoo::Name" .string,
    entry "zoo::Marker" [],
    entry "zoo::Empty" [],
    entry "zoo::Nothing" [],
    entry "zoo::All"
      [ { name := "b", type := .bool },
        { name := "i8", type := signed .bits8 },
        { name := "i16", type := signed .bits16 },
        { name := "i32", type := signed .bits32 },
        { name := "i64", type := signed .bits64 },
        { name := "isize", type := signed .word },
        { name := "u8", type := unsigned .bits8 },
        { name := "u16", type := unsigned .bits16 },
        { name := "u32", type := unsigned .bits32 },
        { name := "u64", type := unsigned .bits64 },
        { name := "usize", type := unsigned .word },
        { name := "f32", type := .single },
        { name := "f64", type := .double },
        { name := "c", type := .char },
        { name := "s", type := .string } ],
    entry "zoo::Opt"
      [ { name := "maybe", type := .option (signed .bits32), default := some ⟨7, by decide⟩ },
        { name := "items"
          type := .list (.option (unsigned .bits8))
          default := [some ⟨1, by decide⟩, none] },
        { name := "grid", type := .list (.list (signed .bits8)) },
        { name := "any", type := .value } ],
    entry "zoo::Raw"
      [ { name := "r#type", type := signed .bits32 },
        { name := "größe", type := unsigned .bits8 } ],
    entry "zoo::Health"
      [ { name := "current", type := unsigned .bits32, default := ⟨5, by decide⟩ },
        { name := "max", type := unsigned .bits32, default := ⟨10, by decide⟩ } ],
    entry "zoo::Gen<u8>" [{ name := "inner", type := unsigned .bits8 }],
    entry "zoo::Gen<alloc::string::String>" [{ name := "inner", type := .string }],
    entry "zoo::Gen<alloc::vec::Vec<core::option::Option<i8>>>"
      [{ name := "inner", type := .list (.option (signed .bits8)) }],
    entry "zoo::deep::er::Nested" [{ name := "v", type := signed .bits32 }],
    wrapper "zoo::_::Twin" (unsigned .bits8),
    (secondTwin, [{ name := "v", type := signed .bits16 }]),
    wrapper "zoo::C0" (unsigned .bits8),
    wrapper "zoo::C1" (unsigned .bits8),
    wrapper "zoo::C2" (unsigned .bits8),
    wrapper "zoo::C3" (unsigned .bits8),
    wrapper "zoo::C4" (unsigned .bits8),
    wrapper "zoo::C5" (unsigned .bits8),
    wrapper "zoo::C6" (unsigned .bits8),
    wrapper "zoo::C7" (unsigned .bits8),
    wrapper "zoo::C8" (unsigned .bits8),
    wrapper "zoo::C9" (unsigned .bits8),
    wrapper "zoo::C10" (unsigned .bits8),
    wrapper "zoo::C11" (unsigned .bits8),
    wrapper "zoo::C12" (unsigned .bits8) ]

/-- The numbered systems. -/
def system (number : Nat) : TypeId where
  name := s!"zoo::Sys<{number}>"

/-- The types of a few entities with many components, or with one type more
    than once. -/
def sample (number : Nat) : List TypeId :=
  let long := ["Velocity", "A", "C9", "B", "Log", "Health", "C0", "C1", "C2", "C3", "C4", "C5",
    "C6", "C7", "C8", "C10"]
  let names := match number with
    | 102 => ["A", "A"]
    | 103 => ["B", "A", "B"]
    | size => long.take size
  names.map fun name => { name := "zoo::" ++ name }

/-- Whether a type is in the collection. -/
def contains (type : TypeId) : Bool :=
  types.any fun entry => entry.1 = type

/-- The fields of a type. A type that is not in the collection has none. -/
def fields (type : TypeId) : List Field :=
  (types.lookup type).getD []

theorem distinct_of_mem : ∀ entry ∈ types, (entry.2.map Field.name).Nodup := by
  decide

theorem mem_of_lookup {α β : Type} [BEq α] [LawfulBEq α] {a : α} {b : β} {entries : List (α × β)}
    (hlookup : entries.lookup a = some b) : (a, b) ∈ entries := by
  induction entries with
  | nil => cases hlookup
  | cons entry entries ih =>
    obtain ⟨key, value⟩ := entry
    rw [List.lookup_cons] at hlookup
    split at hlookup
    case h_1 hkey =>
      obtain rfl := Option.some.inj hlookup
      rw [eq_of_beq hkey]
      exact List.mem_cons_self
    case h_2 => exact List.mem_cons_of_mem _ (ih hlookup)

theorem distinct_fields (type : TypeId) : ((fields type).map Field.name).Nodup := by
  unfold fields
  cases hlookup : types.lookup type with
  | none => exact List.nodup_nil
  | some found => exact distinct_of_mem _ (mem_of_lookup hlookup)

/-- The schema of worlds with these component types. -/
abbrev schema : Schema :=
  Script.schema fields distinct_fields

end EntityWorld.Zoo
