import EntityWorld.Proofs.Store.Placement

namespace EntityWorld.Store

variable {S : Schema} {store : Store S} {order : List EntityId} {entity : EntityId}

namespace Call

/-- A call that succeeds and gives an entity its components, whether or not it has lived before. -/
def Places (store : Store S) (entity : EntityId) : Call S → Prop
  | create components => ∃ after, store.create components = .ok entity after
  | place components placed => placed = entity ∧ ∃ after, store.place components placed = .ok () after
  | restore snapshot => entity ∈ snapshot ∧ ∃ after, store.restore snapshot = .ok () after
  | remove _ | set _ _ | modify _ _ _ | setField _ _ _ _ | register _ | reseed _ => False

/-- A call that takes an entity out of the store. -/
def Removes (store : Store S) (entity : EntityId) : Call S → Prop
  | remove removed => removed = entity ∧ ∃ row after, store.remove removed = .ok row after
  | _ => False

/-- Who is moved to the end of an order is in it afterwards, and nobody else comes or goes. -/
theorem mem_toEnd_iff {moved : EntityId} :
    entity ∈ toEnd order moved ↔ entity ∈ order ∨ entity = moved := by
  rw [toEnd, List.mem_append, List.mem_singleton]
  by_cases heq : entity = moved
  · simp [heq]
  · simp [heq, List.mem_erase_of_ne heq]

theorem mem_foldl_toEnd_iff {moved : List EntityId} :
    entity ∈ moved.foldl toEnd order ↔ entity ∈ order ∨ entity ∈ moved := by
  induction moved generalizing order with
  | nil => simp
  | cons first moved ih => rw [List.foldl_cons, ih, mem_toEnd_iff, List.mem_cons, or_assoc]

/-- An order of placement only gains those that a call places. The cases are the kinds of calls, and
a call that fails moves nobody. -/
theorem mem_or_places_of_mem_reorder {call : Call S} (hmem : entity ∈ call.reorder store order) :
    entity ∈ order ∨ call.Places store entity := by
  cases call with
  | create components =>
    rw [reorder] at hmem
    cases hresult : store.create components with
    | error => exact .inl (by rwa [hresult] at hmem)
    | ok created after =>
      rw [hresult] at hmem
      rcases List.mem_append.mp hmem with hbefore | hnew
      · exact .inl hbefore
      · obtain rfl := List.mem_singleton.mp hnew
        exact .inr ⟨after, hresult⟩
  | place components placed =>
    rw [reorder] at hmem
    cases hresult : store.place components placed with
    | error => exact .inl (by rwa [hresult] at hmem)
    | ok answer after =>
      rw [hresult] at hmem
      exact (mem_toEnd_iff.mp hmem).imp_right fun heq => ⟨heq.symm, after, hresult⟩
  | remove removed =>
    rw [reorder] at hmem
    cases hresult : store.remove removed with
    | error => exact .inl (by rwa [hresult] at hmem)
    | ok row after =>
      rw [hresult] at hmem
      exact .inl (List.mem_of_mem_erase hmem)
  | restore snapshot =>
    rw [reorder] at hmem
    cases hresult : store.restore snapshot with
    | error => exact .inl (by rwa [hresult] at hmem)
    | ok answer after =>
      rw [hresult] at hmem
      refine (mem_foldl_toEnd_iff.mp hmem).imp_right fun hlisted => ?_
      exact ⟨Std.ExtTreeMap.mem_keys.mp hlisted, after, hresult⟩
  | reseed seed =>
    rw [reorder] at hmem
    split at hmem
    · exact .inl hmem
    · exact .inl ((sortBy_perm order).mem_iff.mp hmem)
  | set | modify | setField | register => exact .inl hmem

/-- An order of placement only loses the one that a call removes. Placing an entity again takes it
out and puts it back. -/
theorem mem_reorder_of_mem {call : Call S} (hmem : entity ∈ order)
    (hkept : ¬call.Removes store entity) : entity ∈ call.reorder store order := by
  cases call with
  | create components =>
    rw [reorder]
    split
    · exact List.mem_append_left _ hmem
    · exact hmem
  | place components placed =>
    rw [reorder]
    split
    · exact mem_toEnd_iff.mpr (.inl hmem)
    · exact hmem
  | remove removed =>
    rw [reorder]
    split
    case h_1 row after hresult =>
      refine (List.mem_erase_of_ne fun heq => ?_).mpr hmem
      exact hkept ⟨heq.symm, row, after, hresult⟩
    case h_2 => exact hmem
  | restore snapshot =>
    rw [reorder]
    split
    · exact mem_foldl_toEnd_iff.mpr (.inl hmem)
    · exact hmem
  | reseed seed =>
    rw [reorder]
    split
    · exact hmem
    · exact (sortBy_perm order).mem_iff.mpr hmem
  | set | modify | setField | register => exact hmem

end Call

/-- Who lives after a call has lived before, or the call places it. The order of placement, which
holds the live entities, tells this for all calls at once. -/
theorem Indexed.lives_or_places (hsound : store.Sound) (hindexed : store.Indexed order)
    (call : Call S) (hlives : entity ∈ (call.run store).rows) :
    entity ∈ store.rows ∨ call.Places store entity := by
  have hmem := ((hindexed.run hsound call).mem_iff entity).mpr hlives
  exact (Call.mem_or_places_of_mem_reorder hmem).imp_left (hindexed.mem_iff entity).mp

/-- Who has lived before a call lives after it, unless the call removes it. Restoring takes nobody
away, not even those that the snapshot does not list. -/
theorem Indexed.lives_run (hsound : store.Sound) (hindexed : store.Indexed order) {call : Call S}
    (hlives : entity ∈ store.rows) (hkept : ¬call.Removes store entity) :
    entity ∈ (call.run store).rows := by
  have hmem := (hindexed.mem_iff entity).mpr hlives
  exact ((hindexed.run hsound call).mem_iff entity).mp (Call.mem_reorder_of_mem hmem hkept)

theorem Changes.nextId_le {P : TypeId → Prop} {after : Store S} {placed : List EntityId}
    (hchanges : Changes P store order after placed) : store.nextId ≤ after.nextId := by
  induction hchanges with
  | refl => exact UInt32.le_refl _
  | insert _ _ _ _ hnext _ ih => exact UInt32.le_trans ih hnext
  | erase _ entity ih => rwa [nextId_eraseRow]
  | write _ hsame ih => rwa [hsame.nextId]
  | register _ _ _ ih => exact ih

/-- The next number never goes back, so a number that is behind it is not handed out again. -/
theorem Sound.nextId_le_run (hsound : store.Sound) (call : Call S) :
    store.nextId ≤ (call.run store).nextId := by
  rcases hsound.run_cases_any call [] with ⟨seed, rfl⟩ | hchanges
  · obtain ⟨buckets, heq⟩ := store.reseed_eq seed
    exact UInt32.le_of_eq (congrArg Store.nextId heq).symm
  · exact hchanges.nextId_le

/-- A number that the next one is behind is not handed out. -/
theorem create_ne_ok_of_following_le (hnext : following entity ≤ store.nextId)
    (components : List (Component S)) (after : Store S) :
    store.create components ≠ .ok entity after := by
  intro hcreate
  obtain ⟨hroom, rfl, _⟩ := create_eq_ok hcreate
  exact not_following_le hroom hnext

/-- A number that is handed out was not in use, since all those in use have the next number behind
them. -/
theorem Sound.not_mem_of_create (hsound : store.Sound) {components : List (Component S)}
    {after : Store S} (hcreate : store.create components = .ok entity after) :
    entity ∉ store.rows := by
  intro hlives
  obtain ⟨row, hrow⟩ := mem_iff_exists_getElem?.mp hlives
  exact create_ne_ok_of_following_le (hsound.numbered hrow) components after hcreate

end EntityWorld.Store
