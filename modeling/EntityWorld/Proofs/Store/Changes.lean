import EntityWorld.Proofs.Store.Failure

namespace EntityWorld.Store

variable {S : Schema}

/-- The types that a call may bring into a store. -/
def Call.brings : Call S → List TypeId
  | create components | place components _ => components.map Component.type
  | register type => [type]
  | remove _ | set _ _ | modify _ _ _ | setField _ _ _ _ | reseed _ | restore _ => []

/-- A store and its order of placement after elementary changes that bring in types of one kind
only. What each of these keeps, every call keeps that does not change the seed. -/
inductive Changes (P : TypeId → Prop) (store : Store S) (order : List EntityId) :
    Store S → List EntityId → Prop
  | refl : Changes P store order store order
  | insert {middle : Store S} {placed : List EntityId} {entity next : EntityId} {row : Row S}
      (before : Changes P store order middle placed) (fresh : entity ∉ middle.rows)
      (ascending : row.Ascending) (types : ∀ type ∈ row.types, P type)
      (le_next : middle.nextId ≤ next) (following_le : following entity ≤ next) :
      Changes P store order { middle.insertRow entity row with nextId := next } (placed ++ [entity])
  | erase {middle : Store S} {placed : List EntityId} (before : Changes P store order middle placed)
      (entity : EntityId) : Changes P store order (middle.eraseRow entity) (placed.erase entity)
  | write {middle after : Store S} {placed : List EntityId}
      (before : Changes P store order middle placed) (same : middle.SameLayout after) :
      Changes P store order after placed
  | register {middle : Store S} {placed : List EntityId}
      (before : Changes P store order middle placed) (type : TypeId) (new : P type) :
      Changes P store order (middle.register type) placed

variable {P : TypeId → Prop} {store : Store S} {order : List EntityId}

/-- Elementary changes leave the seed alone, so keys mean the same before and after. -/
theorem Changes.seed_eq {after : Store S} {placed : List EntityId}
    (hchanges : Changes P store order after placed) : after.seed = store.seed := by
  induction hchanges with
  | refl => rfl
  | insert _ _ _ _ _ _ ih => exact ih
  | erase _ entity ih => rw [seed_eraseRow, ih]
  | write _ hsame ih => rw [hsame.seed, ih]
  | register _ _ _ ih => exact ih

theorem forall_types_of_ofList {components : List (Component S)} {row : Row S}
    (hrow : Row.ofList components = .ok row)
    (hcomponents : ∀ type ∈ components.map Component.type, P type) :
    ∀ type ∈ row.types, P type := by
  intro type htype
  have hperm := (Row.ofList_eq_ok hrow).2.map Component.type
  exact hcomponents type (hperm.mem_iff.mp htype)

/-- Placing an entity strikes the one that has its number, and adds it. These are two elementary
changes. -/
theorem Changes.place {middle after : Store S} {placed : List EntityId}
    (hbefore : Changes P store order middle placed) {components : List (Component S)}
    {entity : EntityId} (hcomponents : ∀ type ∈ components.map Component.type, P type)
    (hplace : middle.place components entity = .ok () after) :
    Changes P store order after (Call.toEnd placed entity) := by
  obtain ⟨row, hrow, rfl⟩ := place_eq_ok hplace
  refine (hbefore.erase entity).insert ?_ (Row.ofList_eq_ok hrow).1
    (forall_types_of_ofList hrow hcomponents) ?_ ?_
  · rw [rows_eraseRow]
    simp
  · rw [nextId_eraseRow, UInt32.le_iff_toNat_le, UInt32.toNat_max]
    omega
  · rw [UInt32.le_iff_toNat_le, UInt32.toNat_max]
    omega

/-- Placing entities one after another adds up, whatever was changed before. The induction is over
the entities, and each is struck and added in turn. -/
theorem Changes.placeAll {middle after : Store S} {placed : List EntityId}
    (hbefore : Changes P store order middle placed) {rows : List (EntityId × List (Component S))}
    (hcomponents : ∀ entry ∈ rows, ∀ type ∈ entry.2.map Component.type, P type)
    (hplaced : middle.placeAll rows = .ok () after) :
    Changes P store order after ((rows.map Prod.fst).foldl Call.toEnd placed) := by
  induction rows generalizing middle placed with
  | nil =>
    cases hplaced
    exact hbefore
  | cons entry rows ih =>
    unfold Store.placeAll at hplaced
    split at hplaced
    case h_1 => cases hplaced
    case h_2 next hplace =>
      have hnext := hbefore.place (hcomponents entry List.mem_cons_self) hplace
      exact ih hnext (fun other hother => hcomponents other (List.mem_cons_of_mem entry hother))
        hplaced

/-- What a store rebuilds is of the types that it knows, so nothing else comes in by restoring: a
snapshot has names and values, and no types of its own. -/
theorem forall_types_of_buildRows
    (hknown : ∀ {name : String} {type : TypeId}, store.factories[name]? = some type → P type)
    {snapshot : Snapshot} {rows : List (EntityId × List (Component S))}
    (hbuilt : store.buildRows snapshot = .ok rows) :
    ∀ entry ∈ rows, ∀ type ∈ entry.2.map Component.type, P type := by
  intro entry hentry type htype
  rw [buildRows_eq_ok_iff] at hbuilt
  obtain ⟨_, _, _, hcomponents⟩ := exists_of_mem_forall₂ hbuilt hentry
  obtain ⟨component, hmem, rfl⟩ := List.mem_map.mp htype
  obtain ⟨_, _, hrebuilt⟩ := exists_of_mem_forall₂ hcomponents hmem
  exact hknown (rebuild_eq_ok hrebuilt)

theorem Call.reorder_of_error {after : Store S} {call : Call S} {error : Error}
    (hresult : call.result store = .error error after) : call.reorder store order = order := by
  cases call with
  | create components =>
    have hcreate : store.create components = .error error after := hresult
    rw [reorder, hcreate]
  | place components entity =>
    have hplace : store.place components entity = .error error after := hresult
    rw [reorder, hplace]
  | remove entity =>
    have hremove : store.remove entity = .error error after := hresult
    rw [reorder, hremove]
  | restore snapshot =>
    have hrestore : store.restore snapshot = .error error after := hresult
    rw [reorder, hrestore]
  | reseed seed => cases hresult
  | set | modify | setField | register => rfl

/-- A call changes the seed, or it comes down to elementary changes. These bring in no types but
those of the call and those that the store rebuilds components by. -/
theorem Sound.run_cases (hsound : store.Sound)
    (hknown : ∀ {name : String} {type : TypeId}, store.factories[name]? = some type → P type)
    {call : Call S} (hbrings : ∀ type ∈ call.brings, P type) (order : List EntityId) :
    (∃ seed, call = .reseed seed) ∨
      Changes P store order (call.run store) (call.reorder store order) := by
  have hfailed {error : Error} {after : Store S} (hresult : call.result store = .error error after) :
      Changes P store order (call.run store) (call.reorder store order) := by
    rw [Call.run, hresult, Call.reorder_of_error hresult, stateOf_error,
      hsound.eq_of_error call hresult]
    exact .refl
  have hok {answer : call.Answer} {after : Store S} (hresult : call.result store = .ok answer after) :
      call.run store = after := by
    rw [Call.run, hresult, stateOf_ok]
  cases call with
  | create components =>
    cases hresult : store.create components with
    | error => exact .inr (hfailed hresult)
    | ok entity after =>
      rw [hok hresult, Call.reorder, hresult]
      obtain ⟨hroom, rfl, row, hrow, rfl⟩ := create_eq_ok hresult
      refine .inr (Changes.refl.insert (fun hmem => ?_) (Row.ofList_eq_ok hrow).1
        (forall_types_of_ofList hrow hbrings) (le_following _) (UInt32.le_refl _))
      obtain ⟨found, hfound⟩ := mem_iff_exists_getElem?.mp hmem
      exact not_following_le hroom (hsound.numbered hfound)
  | place components entity =>
    cases hresult : store.place components entity with
    | error => exact .inr (hfailed hresult)
    | ok answer after =>
      rw [hok hresult, Call.reorder, hresult]
      exact .inr (Changes.refl.place hbrings hresult)
  | remove entity =>
    cases hresult : store.remove entity with
    | error => exact .inr (hfailed hresult)
    | ok row after =>
      rw [hok hresult, Call.reorder, hresult, (remove_eq_ok hresult).2]
      exact .inr (Changes.refl.erase entity)
  | set entity component => exact .inr (Changes.refl.write (store.sameLayout_set entity component))
  | modify entity type change =>
    exact .inr (Changes.refl.write (store.sameLayout_modify entity type change))
  | setField entity type field value =>
    exact .inr (Changes.refl.write (store.sameLayout_setField entity type field value))
  | register type => exact .inr (Changes.refl.register type (hbrings type List.mem_cons_self))
  | reseed seed => exact .inl ⟨seed, rfl⟩
  | restore snapshot =>
    cases hresult : store.restore snapshot with
    | error => exact .inr (hfailed hresult)
    | ok answer after =>
      rw [hok hresult, Call.reorder, hresult]
      obtain ⟨rows, hbuilt, hplaced⟩ := restore_eq_ok_iff.mp hresult
      have hstart : Changes P store order store order := .refl
      have hmoved := hstart.placeAll (forall_types_of_buildRows hknown hbuilt) hplaced
      rw [map_fst_of_buildRows hbuilt] at hmoved
      exact .inr hmoved

/-- Without regard to types, every call that does not change the seed comes down to elementary
changes. -/
theorem Sound.run_cases_any (hsound : store.Sound) (call : Call S) (order : List EntityId) :
    (∃ seed, call = .reseed seed) ∨
      Changes (fun _ => True) store order (call.run store) (call.reorder store order) :=
  hsound.run_cases (fun _ => trivial) (fun _ _ => trivial) order

end EntityWorld.Store
