import EntityWorld.Proofs.Row
import EntityWorld.Proofs.Store.Call

namespace EntityWorld

theorem mem_iff_exists_getElem? {α β : Type} [Ord α] [Std.TransOrd α] {map : Std.ExtTreeMap α β}
    {key : α} : key ∈ map ↔ ∃ value, map[key]? = some value := by
  rw [Std.ExtTreeMap.mem_iff_isSome_getElem?, Option.isSome_iff_exists]

namespace Store

variable {S : Schema}

/-- The types of the components that an entity has, in the order of its row. This is all of a row
that its place in the lists depends on. -/
def typesOf (store : Store S) (entity : EntityId) : Option (List TypeId) :=
  store.rows[entity]?.map Row.types

/-- Two stores that differ at most in the values of components. All else that a store consists of is
its layout. -/
structure SameLayout (before after : Store S) : Prop where
  seed : after.seed = before.seed
  types : ∀ entity, after.typesOf entity = before.typesOf entity
  buckets : after.buckets = before.buckets
  factories : after.factories = before.factories
  nextId : after.nextId = before.nextId

theorem SameLayout.refl (store : Store S) : store.SameLayout store :=
  ⟨rfl, fun _ => rfl, rfl, rfl, rfl⟩

theorem SameLayout.trans {first second third : Store S} (hfirst : first.SameLayout second)
    (hsecond : second.SameLayout third) : first.SameLayout third where
  seed := hsecond.seed.trans hfirst.seed
  types entity := (hsecond.types entity).trans (hfirst.types entity)
  buckets := hsecond.buckets.trans hfirst.buckets
  factories := hsecond.factories.trans hfirst.factories
  nextId := hsecond.nextId.trans hfirst.nextId

theorem typesOf_eq_some {store : Store S} {entity : EntityId} {row : Row S}
    (hrow : store.rows[entity]? = some row) : store.typesOf entity = some row.types := by
  rw [typesOf, hrow, Option.map_some]

theorem exists_row_of_typesOf {store : Store S} {entity : EntityId} {types : List TypeId}
    (htypes : store.typesOf entity = some types) :
    ∃ row, store.rows[entity]? = some row ∧ row.types = types := by
  simpa [typesOf] using htypes

/-- Whoever has a row after writing had one of the same types before, and so nobody comes to live by
being written to. -/
theorem SameLayout.exists_row {before after : Store S} (hsame : before.SameLayout after)
    {entity : EntityId} {row : Row S} (hrow : after.rows[entity]? = some row) :
    ∃ old, before.rows[entity]? = some old ∧ old.types = row.types :=
  exists_row_of_typesOf (by rw [← hsame.types, typesOf_eq_some hrow])

/-- Which entities live is part of the layout: an entity lives if its types are known. -/
theorem mem_rows_congr {before after : Store S} {entity : EntityId}
    (htypes : after.typesOf entity = before.typesOf entity) :
    entity ∈ after.rows ↔ entity ∈ before.rows := by
  have hsome := congrArg Option.isSome htypes
  rw [typesOf, typesOf, Option.isSome_map, Option.isSome_map] at hsome
  rw [Std.ExtTreeMap.mem_iff_isSome_getElem?, Std.ExtTreeMap.mem_iff_isSome_getElem?, hsome]

/-- A row can be written over by one with the same types. Neither the lists nor the next number have
a part in it. -/
theorem sameLayout_insert {store : Store S} {entity : EntityId} {row other : Row S}
    (hrow : store.rows[entity]? = some row) (htypes : other.types = row.types) :
    store.SameLayout { store with rows := store.rows.insert entity other } where
  seed := rfl
  types found := by
    rw [typesOf, Std.ExtTreeMap.getElem?_insert]
    split
    case isTrue heq =>
      obtain rfl := Std.LawfulEqOrd.eq_of_compare heq
      rw [typesOf_eq_some hrow, Option.map_some, htypes]
    case isFalse => rfl
  buckets := rfl
  factories := rfl
  nextId := rfl

theorem sameLayout_set (store : Store S) (entity : EntityId) (component : Component S) :
    store.SameLayout (stateOf (store.set entity component)) := by
  unfold set
  split
  case h_1 => exact .refl store
  case h_2 row hrow =>
    split
    case isTrue => exact sameLayout_insert hrow (Row.types_replace row component)
    case isFalse => exact .refl store

/-- Changing a component in place keeps the layout, whatever the change, which gets a value and
gives one back of the same type. -/
theorem sameLayout_modify (store : Store S) (entity : EntityId) (type : TypeId)
    (change : Record (S.fields type) → Record (S.fields type)) :
    store.SameLayout (stateOf (store.modify entity type change)) := by
  unfold modify
  split
  case h_1 => exact .refl store
  case h_2 record _ =>
    have hset := store.sameLayout_set entity ⟨type, change record⟩
    split <;> simpa [*] using hset

theorem sameLayout_setField (store : Store S) (entity : EntityId) (type : TypeId) (field : String)
    (value : Value) : store.SameLayout (stateOf (store.setField entity type field value)) := by
  unfold setField
  split
  case h_1 => exact .refl store
  case h_2 =>
    split
    case h_1 => exact .refl store
    case h_2 changed _ => exact store.sameLayout_modify entity type fun _ => changed

end Store

end EntityWorld
