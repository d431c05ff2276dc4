import EntityWorld.Proofs.Store.Reachable

namespace EntityWorld

variable {S : Schema}

/-- What there is for an entity and a component type: the entity does not live, it lives without
such a component, or it has one. -/
inductive Cell (S : Schema) (type : TypeId) where
  | unknown
  | missing
  | held (record : Record (S.fields type))

/-- What a row has for a component type. Without a row the entity is unknown. -/
def Cell.ofRow? {type : TypeId} : Option (Row S) → Cell S type
  | none => .unknown
  | some row =>
    match row.find? type with
    | none => .missing
    | some record => .held record

/-- How a look-up is answered. -/
def Cell.answer {type : TypeId} (entity : EntityId) :
    Cell S type → Except Error (Record (S.fields type))
  | .unknown => .error (.unknownEntity entity)
  | .missing => .error (.missingComponent entity type.name)
  | .held record => .ok record

namespace Store

/-- What a store has for an entity and a component type. -/
def cell (store : Store S) (entity : EntityId) (type : TypeId) : Cell S type :=
  .ofRow? store.rows[entity]?

theorem cell_congr {before after : Store S} {entity : EntityId}
    (hrow : after.rows[entity]? = before.rows[entity]?) (type : TypeId) :
    after.cell entity type = before.cell entity type := by
  rw [cell, cell, hrow]

theorem get_eq_answer (store : Store S) (entity : EntityId) (type : TypeId) :
    store.get entity type = (store.cell entity type).answer entity := by
  unfold get row cell
  cases store.rows[entity]? with
  | none => rfl
  | some row =>
    change (match row.find? type with
      | none => Except.error (Error.missingComponent entity type.name)
      | some record => .ok record) = _
    rw [Cell.ofRow?]
    cases row.find? type <;> rfl

theorem get_eq_ok_iff {store : Store S} {entity : EntityId} {type : TypeId}
    {record : Record (S.fields type)} :
    store.get entity type = .ok record ↔
      ∃ row, store.rows[entity]? = some row ∧ row.find? type = some record := by
  rw [get_eq_answer, cell]
  cases store.rows[entity]? with
  | none => simp [Cell.ofRow?, Cell.answer]
  | some row => cases hfound : row.find? type <;> simp [Cell.ofRow?, Cell.answer, hfound]

/-- What a field reads of the component that an entity has of a type. A field that the type does not
have reads nothing, and what is not found fails as the look-up does. -/
def read (store : Store S) (entity : EntityId) (type : TypeId) (field : String) :
    Except Error (Option Value) :=
  (store.get entity type).map fun record => record.get? _ field

/-- Rows in which the fields of a type read alike make the field read alike, although the components
need not be the same. -/
theorem read_eq_of_rows {before after : Store S} {entity : EntityId} {row rebuilt : Row S}
    (hrow : before.rows[entity]? = some row) (hrebuilt : after.rows[entity]? = some rebuilt)
    {type : TypeId} {field : String}
    (hfields : (rebuilt.find? type).map (·.get? _ field) = (row.find? type).map (·.get? _ field)) :
    after.read entity type field = before.read entity type field := by
  rw [read, read, get_eq_answer, get_eq_answer, cell, cell, hrow, hrebuilt]
  cases hbefore : row.find? type with
  | none =>
    rw [hbefore, Option.map_none, Option.map_eq_none_iff] at hfields
    simp only [Cell.ofRow?, hbefore, hfields]
  | some record =>
    rw [hbefore, Option.map_some, Option.map_eq_some_iff] at hfields
    obtain ⟨other, hother, hsame⟩ := hfields
    simp only [Cell.ofRow?, hbefore, hother]
    exact congrArg Except.ok hsame

theorem get_eq_unknown_iff {store : Store S} {entity : EntityId} {type : TypeId} :
    store.get entity type = .error (.unknownEntity entity) ↔ entity ∉ store.rows := by
  rw [get_eq_answer, cell, mem_iff_exists_getElem?]
  cases store.rows[entity]? with
  | none => simp [Cell.ofRow?, Cell.answer]
  | some row => cases hfound : row.find? type <;> simp [Cell.ofRow?, Cell.answer, hfound]

/-- A look-up says that a component is missing exactly if the entity lives without one of the
type. -/
theorem get_eq_missing_iff {store : Store S} {entity : EntityId} {type : TypeId} :
    store.get entity type = .error (.missingComponent entity type.name) ↔
      ∃ row, store.rows[entity]? = some row ∧ type ∉ row.types := by
  rw [get_eq_answer, cell]
  cases store.rows[entity]? with
  | none => simp [Cell.ofRow?, Cell.answer]
  | some row =>
    simp only [Option.some.injEq, exists_eq_left', ← Row.find?_isSome, Cell.ofRow?]
    cases row.find? type <;> simp [Cell.answer]

/-- An entity has a component of a type exactly if the look-up finds one. For an entity that does
not live both say no. -/
theorem has_iff {store : Store S} {entity : EntityId} {type : TypeId} :
    store.has entity type = true ↔ ∃ record, store.get entity type = .ok record := by
  simp only [get_eq_ok_iff, has]
  cases store.rows[entity]? with
  | none => simp
  | some row =>
    simp [Row.contains_iff, ← Row.find?_isSome, Option.isSome_iff_exists]

/-- In a row no type occurs twice, so a look-up finds the one component of the type that is
there. -/
theorem Sound.get_eq_ok_iff_mem {store : Store S} (hsound : store.Sound) {entity : EntityId}
    {type : TypeId} {record : Record (S.fields type)} :
    store.get entity type = .ok record ↔
      ∃ row, store.rows[entity]? = some row ∧ ⟨type, record⟩ ∈ row := by
  rw [get_eq_ok_iff]
  refine exists_congr fun row => and_congr_right fun hrow => ?_
  exact Row.find?_eq_some_iff (hsound.ascending hrow).nodup

end Store

/-- One thing that is done to the rows of a store: an entity is given all its components, it is
taken away, or one of its components is stored. -/
inductive Deed (S : Schema) where
  | settled (entity : EntityId) (components : List (Component S))
  | removed (entity : EntityId)
  | stored (entity : EntityId) (component : Component S)

namespace Deed

/-- The entity that a deed is about. -/
def entity : Deed S → EntityId
  | settled entity _ | removed entity | stored entity _ => entity

/-- What a deed makes of what there is for an entity and a component type, if it is about them. A
component is about its own type only, even if another type has the same name. -/
def cell? (entity : EntityId) (type : TypeId) : Deed S → Option (Cell S type)
  | settled owner components =>
    if owner = entity then some (.ofRow? (some components)) else none
  | removed owner => if owner = entity then some .unknown else none
  | stored owner component =>
    if owner = entity then (component.as? type).map .held else none

theorem cell?_of_ne {deed : Deed S} {entity : EntityId} (hne : deed.entity ≠ entity)
    {type : TypeId} : deed.cell? entity type = none := by
  cases deed <;> exact if_neg hne

/-- What the latest deed says that is about an entity and a component type. -/
def latest? (deeds : List (Deed S)) (entity : EntityId) (type : TypeId) : Option (Cell S type) :=
  deeds.reverse.findSome? (cell? entity type)

theorem latest?_singleton (deed : Deed S) (entity : EntityId) (type : TypeId) :
    latest? [deed] entity type = deed.cell? entity type := by
  rw [latest?, List.reverse_singleton, List.findSome?_singleton]

/-- Later deeds are asked first, and earlier ones only where these say nothing. This is what makes
the latest deed the one that counts. -/
theorem latest?_append (past future : List (Deed S)) (entity : EntityId) (type : TypeId) :
    latest? (past ++ future) entity type =
      (latest? future entity type).or (latest? past entity type) := by
  rw [latest?, List.reverse_append, List.findSome?_append]
  rfl

end Deed

namespace Store

/-- A store is what deeds have made of another one: what it has is what the latest deed says, or
else what the other one had. This is said for every entity and type at once. -/
def Follows (before : Store S) (deeds : List (Deed S)) (after : Store S) : Prop :=
  ∀ (entity : EntityId) (type : TypeId),
    after.cell entity type = (Deed.latest? deeds entity type).getD (before.cell entity type)

theorem Follows.of_rows {before after : Store S}
    (hrows : ∀ entity : EntityId, after.rows[entity]? = before.rows[entity]?) :
    before.Follows [] after :=
  fun entity type => cell_congr (hrows entity) type

/-- Deeds that are done one after another are done together, since the later ones are asked
first. -/
theorem Follows.trans {first middle last : Store S} {past future : List (Deed S)}
    (hpast : first.Follows past middle) (hfuture : middle.Follows future last) :
    first.Follows (past ++ future) last := by
  intro entity type
  rw [hfuture, hpast, Deed.latest?_append]
  cases Deed.latest? future entity type <;> rfl

/-- A store in which only the entity of a deed has another row follows the deed if it says what is
in that row. -/
theorem follows_single {before after : Store S} {deed : Deed S} {found : Option (Row S)}
    (hrows : ∀ entity : EntityId, after.rows[entity]? =
      if deed.entity = entity then found else before.rows[entity]?)
    (hfound : ∀ type, .ofRow? found =
      (deed.cell? deed.entity type).getD (before.cell deed.entity type)) :
    before.Follows [deed] after := by
  intro entity type
  rw [Deed.latest?_singleton, cell, hrows]
  by_cases heq : deed.entity = entity
  · subst heq
    rw [if_pos rfl, hfound]
  · rw [if_neg heq, Deed.cell?_of_ne heq]
    rfl

/-- Giving an entity a row is one deed, which replaces all that it had. The row has just the
components, whatever their order. -/
theorem follows_settled {before after : Store S} {components : List (Component S)} {row : Row S}
    {entity : EntityId} (hrow : Row.ofList components = .ok row)
    (hrows : ∀ other, after.rows[other]? =
      if entity = other then some row else before.rows[other]?) :
    before.Follows [.settled entity components] after := by
  obtain ⟨hascending, hperm⟩ := Row.ofList_eq_ok hrow
  refine follows_single hrows fun type => ?_
  rw [Deed.entity, Deed.cell?, if_pos rfl, Cell.ofRow?, Cell.ofRow?,
    Row.find?_eq_of_perm hascending.nodup hperm]
  rfl

theorem follows_removed {before after : Store S} {entity : EntityId}
    (hrows : ∀ other, after.rows[other]? = if entity = other then none else before.rows[other]?) :
    before.Follows [.removed entity] after := by
  refine follows_single hrows fun type => ?_
  rw [Deed.entity, Deed.cell?, if_pos rfl]
  rfl

/-- Replacing one component in a row is one deed, which leaves the other components of the entity
alone. -/
theorem follows_stored {before after : Store S} {component : Component S} {row : Row S}
    {entity : EntityId} (hrow : before.rows[entity]? = some row)
    (howned : component.type ∈ row.types)
    (hrows : ∀ other, after.rows[other]? =
      if entity = other then some (row.replace component) else before.rows[other]?) :
    before.Follows [.stored entity component] after := by
  refine follows_single hrows fun type => ?_
  rw [Deed.entity, Deed.cell?, if_pos rfl, cell, hrow, Cell.ofRow?]
  by_cases htype : component.type = type
  · subst htype
    rw [Row.find?_replace_self howned, Component.as?_self]
    rfl
  · rw [Row.find?_replace_of_ne htype, Component.as?_of_ne htype]
    rfl

/-- What is done by setting a component: it is stored where the entity has one of its type, and
otherwise nothing is. -/
def setDeeds (store : Store S) (entity : EntityId) (component : Component S) : List (Deed S) :=
  if store.has entity component.type then [.stored entity component] else []

/-- What is done by changing a component in place: what the entity has is stored after the change.
The change is applied to what the store has before the call, not to what the call answers. -/
def modifyDeeds (store : Store S) (entity : EntityId) (type : TypeId)
    (change : Record (S.fields type) → Record (S.fields type)) : List (Deed S) :=
  match store.get entity type with
  | .error _ => []
  | .ok found => [.stored entity ⟨type, change found⟩]

/-- What is done by setting a field in place: what the entity has is stored with the field set, if
the component takes the value there. -/
def setFieldDeeds (store : Store S) (entity : EntityId) (type : TypeId) (field : String)
    (value : Value) : List (Deed S) :=
  match store.get entity type with
  | .error _ => []
  | .ok found =>
    match Component.set ⟨type, found⟩ field value with
    | .error _ => []
    | .ok changed => [.stored entity changed]

/-- What a call does that succeeds with an answer. The answer only gives the number of a new entity:
what is stored comes from the arguments of the call and, where a component is changed in place, from
what the entity has before. -/
def Call.deedsOf (store : Store S) : (call : Call S) → call.Answer → List (Deed S)
  | create components, entity => [.settled entity components]
  | place components entity, _ => [.settled entity components]
  | remove entity, _ => [.removed entity]
  | set entity component, _ => store.setDeeds entity component
  | modify entity type change, _ => store.modifyDeeds entity type change
  | setField entity type field value, _ => store.setFieldDeeds entity type field value
  | register _, _ | reseed _, _ => []
  | restore snapshot, _ =>
    match store.buildRows snapshot with
    | .ok rows => rows.map fun (entity, components) => .settled entity components
    | .error _ => []

/-- What a call does. A call that fails does nothing. -/
def Call.deeds (store : Store S) (call : Call S) : List (Deed S) :=
  match call.result store with
  | .ok answer _ => call.deedsOf store answer
  | .error _ _ => []

/-- A store in which a component of an entity has been stored in the place of one of its type. The
entity lives, and has a component of the type before. -/
def Stores (store : Store S) (entity : EntityId) (component : Component S) (after : Store S) :
    Prop :=
  ∃ row, store.rows[entity]? = some row ∧ component.type ∈ row.types ∧
    after = { store with rows := store.rows.insert entity (row.replace component) }

theorem Stores.follows {store after : Store S} {entity : EntityId} {component : Component S}
    (hstores : store.Stores entity component after) :
    store.Follows [.stored entity component] after := by
  obtain ⟨row, hrow, howned, rfl⟩ := hstores
  exact follows_stored hrow howned fun other => getElem?_rows_insert ..

/-- The three outcomes of setting a component: the entity is unknown, it has no component of the
type, or the component is stored. -/
theorem set_cases (store : Store S) (entity : EntityId) (component : Component S) :
    (store.rows[entity]? = none ∧
      store.set entity component = .error (.unknownEntity entity) store) ∨
    (∃ row, store.rows[entity]? = some row ∧ component.type ∉ row.types ∧
      store.set entity component = .ok false store) ∨
    ∃ after, store.Stores entity component after ∧
      store.set entity component = .ok true after := by
  rw [set]
  cases hrow : store.rows[entity]? with
  | none => exact .inl ⟨rfl, rfl⟩
  | some row =>
    by_cases howned : component.type ∈ row.types
    · refine .inr (.inr ⟨_, ⟨row, hrow, howned, rfl⟩, ?_⟩)
      exact if_pos (Row.contains_iff.mpr howned)
    · exact .inr (.inl ⟨row, rfl, howned, if_neg (mt Row.contains_iff.mp howned)⟩)

theorem set_eq_true {store after : Store S} {entity : EntityId} {component : Component S}
    (hset : store.set entity component = .ok true after) :
    store.Stores entity component after := by
  rcases store.set_cases entity component with ⟨_, hcase⟩ | ⟨_, _, _, hcase⟩ | ⟨_, hstores, hcase⟩
  all_goals cases hset.symm.trans hcase
  exact hstores

/-- Storing a component leaves all other types and all other entities alone, even a type of the same
name. -/
theorem Stores.get_of_ne {store after : Store S} {entity : EntityId} {component : Component S}
    (hstores : store.Stores entity component after) {other : EntityId} {type : TypeId}
    (hne : other ≠ entity ∨ type ≠ component.type) :
    after.get other type = store.get other type := by
  have hcell : Deed.cell? other type (.stored entity component) = none := by
    rw [Deed.cell?]
    by_cases hentity : entity = other
    · rw [if_pos hentity, Component.as?_of_ne (hne.resolve_left (not_not_intro hentity.symm)).symm]
      rfl
    · exact if_neg hentity
  rw [get_eq_answer, get_eq_answer, hstores.follows other type, Deed.latest?_singleton, hcell]
  rfl

theorem Stores.sameLayout {store after : Store S} {entity : EntityId} {component : Component S}
    (hstores : store.Stores entity component after) : store.SameLayout after := by
  obtain ⟨row, hrow, _, rfl⟩ := hstores
  exact sameLayout_insert hrow (Row.types_replace row component)

theorem Stores.has {store after : Store S} {entity : EntityId} {component : Component S}
    (hstores : store.Stores entity component after) :
    store.has entity component.type = true := by
  obtain ⟨row, hrow, howned, _⟩ := hstores
  rw [Store.has, hrow]
  exact Row.contains_iff.mpr howned

theorem Stores.get_eq {store after : Store S} {entity : EntityId} {component : Component S}
    (hstores : store.Stores entity component after) :
    after.get entity component.type = .ok component.record := by
  have hcell : Deed.cell? entity component.type (.stored entity component) =
      some (.held component.record) := by
    rw [Deed.cell?, if_pos rfl, Component.as?_self]
    rfl
  rw [get_eq_answer, hstores.follows entity component.type, Deed.latest?_singleton, hcell]
  rfl

/-- A store in which one component of an entity holds another value, with all else as it was: the
same entities, types and lists, and every other component reads as before. -/
structure Puts (before : Store S) (entity : EntityId) (component : Component S)
    (after : Store S) : Prop where
  layout : before.SameLayout after
  reads : after.get entity component.type = .ok component.record
  others : ∀ (other : EntityId) (type : TypeId), other ≠ entity ∨ type ≠ component.type →
    after.get other type = before.get other type

/-- All that storing a component can be seen to do: the type has the new value for this entity, and
everything else reads as before. -/
theorem Stores.puts {store after : Store S} {entity : EntityId} {component : Component S}
    (hstores : store.Stores entity component after) : store.Puts entity component after where
  layout := hstores.sameLayout
  reads := hstores.get_eq
  others _ _ := hstores.get_of_ne

/-- Setting does what its deeds say, and it does nothing if it answers no. -/
theorem follows_set {store after : Store S} {entity : EntityId} {component : Component S}
    {owned : Bool} (hset : store.set entity component = .ok owned after) :
    store.Follows (store.setDeeds entity component) after := by
  unfold setDeeds
  rcases store.set_cases entity component with
    ⟨_, hcase⟩ | ⟨row, hrow, hmissing, hcase⟩ | ⟨_, hstores, hcase⟩
  all_goals cases hset.symm.trans hcase
  · have hlacks : store.has entity component.type = false := by
      simpa [has, hrow, ← Row.contains_iff] using hmissing
    rw [hlacks]
    exact .of_rows fun _ => rfl
  · rw [hstores.has]
    exact hstores.follows

/-- Changing a component in place succeeds where the entity has it, since setting what was just
found cannot fail, and it stores and answers what the change makes of it. -/
theorem modify_of_get {store : Store S} {entity : EntityId} {type : TypeId}
    {found : Record (S.fields type)} (hget : store.get entity type = .ok found)
    (change : Record (S.fields type) → Record (S.fields type)) :
    ∃ after, store.modify entity type change = .ok (change found) after ∧
      store.Stores entity ⟨type, change found⟩ after := by
  unfold modify
  rw [hget]
  obtain ⟨row, hrow, hfound⟩ := get_eq_ok_iff.mp hget
  have howned : type ∈ row.types := Row.find?_isSome.mp (Option.isSome_of_eq_some hfound)
  rcases store.set_cases entity ⟨type, change found⟩ with
    ⟨hnone, _⟩ | ⟨other, hother, hmissing, _⟩ | ⟨after, hstores, hset⟩
  · cases hrow.symm.trans hnone
  · cases hrow.symm.trans hother
    exact absurd howned hmissing
  · exact ⟨after, by simp only [hset], hstores⟩

/-- Nothing is changed in place of what is not found. The error is that of the look-up, and the
change is never applied. -/
theorem modify_of_get_error {store : Store S} {entity : EntityId} {type : TypeId} {error : Error}
    (hget : store.get entity type = .error error)
    (change : Record (S.fields type) → Record (S.fields type)) :
    store.modify entity type change = .error error store := by
  rw [modify, hget]

/-- Setting a field of a component in place does to it what setting the field does, and nothing if
that fails. The error is passed on as it is. -/
theorem setField_cases {store : Store S} {entity : EntityId} {component : Component S}
    (hget : store.get entity component.type = .ok component.record) (field : String)
    (value : Value) :
    (∀ error, component.set field value = .error error →
      store.setField entity component.type field value = .error (.field error) store) ∧
    ∀ record, component.set field value = .ok ⟨component.type, record⟩ →
      ∃ after, store.setField entity component.type field value = .ok record after ∧
        store.Stores entity ⟨component.type, record⟩ after := by
  unfold setField Component.set
  simp only [hget]
  cases hset : S.setField component.type component.record field value with
  | error cause =>
    refine ⟨fun error herror => ?_, nofun⟩
    cases herror
    rfl
  | ok changed =>
    refine ⟨nofun, fun record hrecord => ?_⟩
    cases hrecord
    exact modify_of_get hget fun _ => changed

/-- Setting a field where the entity does not have the component fails as the look-up does, and
neither the field nor the value is looked at. -/
theorem setField_of_get_error {store : Store S} {entity : EntityId} {type : TypeId} {error : Error}
    (hget : store.get entity type = .error error) (field : String) (value : Value) :
    store.setField entity type field value = .error error store := by
  rw [setField, hget]

theorem follows_modify {store after : Store S} {entity : EntityId} {type : TypeId}
    {change : Record (S.fields type) → Record (S.fields type)} {answer : Record (S.fields type)}
    (hmodify : store.modify entity type change = .ok answer after) :
    store.Follows (store.modifyDeeds entity type change) after := by
  unfold modifyDeeds
  cases hget : store.get entity type with
  | error error => cases (modify_of_get_error hget change).symm.trans hmodify
  | ok found =>
    obtain ⟨other, hother, hstores⟩ := modify_of_get hget change
    cases hother.symm.trans hmodify
    exact hstores.follows

theorem follows_setField {store after : Store S} {entity : EntityId} {type : TypeId}
    {field : String} {value : Value} {answer : Record (S.fields type)}
    (hset : store.setField entity type field value = .ok answer after) :
    store.Follows (store.setFieldDeeds entity type field value) after := by
  unfold setFieldDeeds
  cases hget : store.get entity type with
  | error error => cases (setField_of_get_error hget field value).symm.trans hset
  | ok found =>
    obtain ⟨herror, hok⟩ := @setField_cases S store entity ⟨type, found⟩ hget field value
    cases hchanged : Component.set ⟨type, found⟩ field value with
    | error cause => cases (herror cause hchanged).symm.trans hset
    | ok changed =>
      obtain ⟨_, record⟩ := changed
      obtain rfl : _ = type := Component.type_set hchanged
      obtain ⟨other, hother, hstores⟩ := hok record hchanged
      cases hother.symm.trans hset
      simpa only [hchanged] using hstores.follows

/-- Placing an entity gives it its components, and takes away those of one that had its number. As
one deed this is all the same, since it says what is there for every type. -/
theorem follows_place {store after : Store S} {components : List (Component S)}
    {entity : EntityId} (hplace : store.place components entity = .ok () after) :
    store.Follows [.settled entity components] after := by
  obtain ⟨row, hrow, rfl⟩ := place_eq_ok hplace
  refine follows_settled hrow fun other => ?_
  rw [rows_insertRow, getElem?_rows_insert, rows_eraseRow, getElem?_rows_erase]
  split <;> rfl

/-- Placing entities one after another does one deed for each of them, in their order. -/
theorem follows_placeAll {store after : Store S} {rows : List (EntityId × List (Component S))}
    (hplaced : store.placeAll rows = .ok () after) :
    store.Follows (rows.map fun (entity, components) => .settled entity components) after := by
  induction rows generalizing store with
  | nil =>
    cases hplaced
    exact .of_rows fun _ => rfl
  | cons entry rows ih =>
    unfold placeAll at hplaced
    split at hplaced
    case h_1 => cases hplaced
    case h_2 middle hplace => exact (follows_place hplace).trans (ih hplaced)

/-- A call that succeeds does what its deeds say. Each kind of call has a lemma of its own. -/
theorem Call.follows_of_ok {store after : Store S} (call : Call S) {answer : call.Answer}
    (hresult : call.result store = .ok answer after) :
    store.Follows (call.deedsOf store answer) after := by
  cases call with
  | create components =>
    obtain ⟨_, _, row, hrow, rfl⟩ := create_eq_ok hresult
    exact follows_settled hrow fun other => getElem?_rows_insert ..
  | place components entity => exact follows_place hresult
  | remove entity =>
    obtain ⟨_, rfl⟩ := remove_eq_ok hresult
    refine follows_removed fun other => ?_
    rw [rows_eraseRow, getElem?_rows_erase]
  | set entity component => exact follows_set hresult
  | modify entity type change => exact follows_modify hresult
  | setField entity type field value => exact follows_setField hresult
  | register type =>
    cases hresult
    exact .of_rows fun _ => rfl
  | reseed seed =>
    cases hresult
    obtain ⟨buckets, heq⟩ := store.reseed_eq seed
    exact .of_rows fun _ => by rw [heq]
  | restore snapshot =>
    obtain ⟨rows, hbuilt, hplaced⟩ := restore_eq_ok_iff.mp hresult
    rw [deedsOf, hbuilt]
    exact follows_placeAll hplaced

/-- The store that a call leaves has what its deeds say, and what it had before if the call
fails. -/
theorem Sound.follows_run {store : Store S} (hsound : store.Sound) (call : Call S) :
    store.Follows (call.deeds store) (call.run store) := by
  rw [Call.deeds, Call.run]
  cases hresult : call.result store with
  | ok answer after => exact call.follows_of_ok hresult
  | error error after =>
    exact .of_rows fun _ => by rw [stateOf_error, hsound.eq_of_error call hresult]

end Store

end EntityWorld
