import EntityWorld.Proofs.Store.Restore

namespace EntityWorld.Store

variable {S : Schema}

/-- Creation fails for want of numbers or for a duplicate, before it touches the store. -/
theorem create_error {store after : Store S} {components : List (Component S)} {error : Error}
    (hcreate : store.create components = .error error after) : after = store := by
  unfold create at hcreate
  split at hcreate
  · cases hcreate
    rfl
  · split at hcreate <;> cases hcreate
    rfl

/-- Placing fails for a duplicate only, before the entity that has the number is struck. -/
theorem place_error {store after : Store S} {components : List (Component S)} {entity : EntityId}
    {error : Error} (hplace : store.place components entity = .error error after) :
    after = store := by
  unfold place at hplace
  split at hplace <;> cases hplace
  rfl

/-- Removal fails for an unknown entity only, and then there is no row to take out. -/
theorem remove_error {store after : Store S} {entity : EntityId} {error : Error}
    (hremove : store.remove entity = .error error after) : after = store := by
  unfold remove at hremove
  split at hremove <;> cases hremove
  rfl

theorem set_error {store after : Store S} {entity : EntityId} {component : Component S}
    {error : Error} (hset : store.set entity component = .error error after) : after = store := by
  unfold set at hset
  split at hset
  · cases hset
    rfl
  · split at hset <;> cases hset

/-- Setting a component that the entity does not have is no failure, and changes nothing. It never
adds a component, since that would move the entity to other keys. -/
theorem set_false {store after : Store S} {entity : EntityId} {component : Component S}
    (hset : store.set entity component = .ok false after) : after = store := by
  unfold set at hset
  split at hset
  · cases hset
  · split at hset <;> cases hset
    rfl

/-- A change in place fails where the look-up does. The second half, which sets what was found,
never fails. -/
theorem modify_error {store after : Store S} {entity : EntityId} {type : TypeId}
    {change : Record (S.fields type) → Record (S.fields type)} {error : Error}
    (hmodify : store.modify entity type change = .error error after) : after = store := by
  unfold modify at hmodify
  split at hmodify
  · cases hmodify
    rfl
  · split at hmodify <;> cases hmodify
    exact set_error ‹_›

/-- Setting a field fails where the look-up does or where the component does not take the value,
before anything is stored. -/
theorem setField_error {store after : Store S} {entity : EntityId} {type : TypeId}
    {field : String} {value : Value} {error : Error}
    (hset : store.setField entity type field value = .error error after) : after = store := by
  unfold setField at hset
  split at hset
  · cases hset
    rfl
  · split at hset
    · cases hset
      rfl
    · exact modify_error hset

/-- No call of any kind changes a store when it fails. Restoring builds all entities before it
places any, and placing what was built does not fail. -/
theorem Sound.eq_of_error {store after : Store S} (hsound : store.Sound) (call : Call S)
    {error : Error} (hresult : call.result store = .error error after) : after = store := by
  cases call with
  | create components => exact create_error hresult
  | place components entity => exact place_error hresult
  | remove entity => exact remove_error hresult
  | set entity component => exact set_error hresult
  | modify entity type change => exact modify_error hresult
  | setField entity type field value => exact setField_error hresult
  | register type => cases hresult
  | reseed seed => cases hresult
  | restore snapshot => exact hsound.restore_error hresult

end EntityWorld.Store
