import EntityWorld.Proofs.Store.Living
import EntityWorld.Proofs.Store.SetBack

namespace EntityWorld.Store

variable {S : Schema} {store : Store S} {order used : List EntityId} {entity : EntityId}

namespace Call

/-- The numbers under which a call places entities. A call that fails places none. -/
def numbers (store : Store S) : Call S → List EntityId
  | create components =>
    match store.create components with
    | .ok entity _ => [entity]
    | .error _ _ => []
  | place components entity =>
    match store.place components entity with
    | .ok _ _ => [entity]
    | .error _ _ => []
  | restore snapshot =>
    match store.restore snapshot with
    | .ok _ _ => snapshot.keys
    | .error _ _ => []
  | remove _ | set _ _ | modify _ _ _ | setField _ _ _ _ | register _ | reseed _ => []

/-- The numbers under which calls place entities, one call after another. -/
def numbersOf : List (Call S) → Store S → List EntityId
  | [], _ => []
  | call :: calls, store => call.numbers store ++ numbersOf calls (call.run store)

/-- A call places an entity exactly if it does so under the number of the entity. -/
theorem mem_numbers_iff {call : Call S} :
    entity ∈ call.numbers store ↔ call.Places store entity := by
  cases call with
  | create components =>
    rw [numbers, Places]
    cases store.create components <;> simp [eq_comm]
  | place components placed =>
    rw [numbers, Places]
    cases store.place components placed <;> simp [eq_comm]
  | restore snapshot =>
    rw [numbers, Places]
    cases store.restore snapshot <;> simp [Std.ExtTreeMap.mem_keys]
  | remove | set | modify | setField | register | reseed => simp [numbers, Places]

theorem numbers_of_error {after : Store S} {call : Call S} {error : Error}
    (hresult : call.result store = .error error after) : call.numbers store = [] := by
  cases call with
  | create components =>
    have hcreate : store.create components = .error error after := hresult
    rw [numbers, hcreate]
  | place components entity =>
    have hplace : store.place components entity = .error error after := hresult
    rw [numbers, hplace]
  | restore snapshot =>
    have hrestore : store.restore snapshot = .error error after := hresult
    rw [numbers, hrestore]
  | remove | set | modify | setField | register | reseed => rfl

/-- Numbers of later calls come behind those of earlier ones, each call being made on what was left
by the others. -/
theorem numbersOf_append (calls later : List (Call S)) (store : Store S) :
    numbersOf (calls ++ later) store = numbersOf calls store ++ numbersOf later (runAll calls store) := by
  induction calls generalizing store with
  | nil => rfl
  | cons call calls ih =>
    rw [List.cons_append, numbersOf, numbersOf, ih, List.append_assoc]
    rfl

end Call

theorem foldl_max_le_iff {numbers : List Nat} {start bound : Nat} :
    numbers.foldl max start ≤ bound ↔ start ≤ bound ∧ ∀ number ∈ numbers, number ≤ bound := by
  induction numbers generalizing start with
  | nil => simp
  | cons number numbers ih =>
    rw [List.foldl_cons, ih, Nat.max_le, List.forall_mem_cons, and_assoc]

/-- A call moves the next number just far enough to have all numbers behind it under which the call
places entities. Said with a bound this needs no case for a call that places nobody. -/
theorem Sound.nextId_run_le_iff (hsound : store.Sound) (call : Call S) (bound : Nat) :
    (call.run store).nextId.toNat ≤ bound ↔
      store.nextId.toNat ≤ bound ∧
        ∀ entity ∈ call.numbers store, (following entity).toNat ≤ bound := by
  have hidle {after : Store S} (hafter : after.nextId = store.nextId) :
      after.nextId.toNat ≤ bound ↔ store.nextId.toNat ≤ bound ∧
        ∀ entity ∈ ([] : List EntityId), (following entity).toNat ≤ bound := by
    simp [hafter]
  have hfailed {error : Error} {after : Store S} (hresult : call.result store = .error error after) :
      (call.run store).nextId.toNat ≤ bound ↔ store.nextId.toNat ≤ bound ∧
        ∀ entity ∈ call.numbers store, (following entity).toNat ≤ bound := by
    rw [Call.numbers_of_error hresult, Call.run, hresult]
    exact hidle (congrArg nextId (hsound.eq_of_error call hresult))
  have hok {answer : call.Answer} {after : Store S} (hresult : call.result store = .ok answer after) :
      call.run store = after := by
    rw [Call.run, hresult, stateOf_ok]
  cases call with
  | create components =>
    cases hresult : store.create components with
    | error => exact hfailed hresult
    | ok entity after =>
      rw [hok hresult, Call.numbers, hresult]
      obtain ⟨_, rfl, row, _, rfl⟩ := create_eq_ok hresult
      have hle := UInt32.le_iff_toNat_le.mp (le_following store.nextId)
      simp only [List.mem_singleton, forall_eq]
      omega
  | place components entity =>
    cases hresult : store.place components entity with
    | error => exact hfailed hresult
    | ok answer after =>
      rw [hok hresult, Call.numbers, hresult]
      obtain ⟨row, _, rfl⟩ := place_eq_ok hresult
      simp only [List.mem_singleton, forall_eq, UInt32.toNat_max, Nat.max_le]
  | restore snapshot =>
    cases hresult : store.restore snapshot with
    | error => exact hfailed hresult
    | ok answer after =>
      rw [hok hresult, Call.numbers, hresult, (hsound.placed_of_restore hresult).2.2,
        foldl_max_le_iff]
      simp only [List.forall_mem_map, toNat_following]
  | remove entity =>
    cases hresult : store.remove entity with
    | error => exact hfailed hresult
    | ok row after =>
      rw [hok hresult, (remove_eq_ok hresult).2]
      exact hidle (nextId_eraseRow store entity)
  | set entity component => exact hidle (store.sameLayout_set entity component).nextId
  | modify entity type change => exact hidle (store.sameLayout_modify entity type change).nextId
  | setField entity type field value =>
    exact hidle (store.sameLayout_setField entity type field value).nextId
  | register type => exact hidle rfl
  | reseed seed =>
    obtain ⟨buckets, heq⟩ := store.reseed_eq seed
    have hafter : (store.reseed seed).nextId = store.nextId := by rw [heq]
    exact hidle hafter

/-- A store after a run that placed entities under some numbers: who lives has one of them, and the
next number is the least that has them all behind it. So a number is handed out at most once, and
never after it was in use. -/
structure Accounts (store : Store S) (used : List EntityId) : Prop where
  lives : ∀ entity ∈ store.rows, entity ∈ used
  nextId_le_iff : ∀ bound, store.nextId.toNat ≤ bound ↔
    ∀ entity ∈ used, (following entity).toNat ≤ bound

theorem Accounts.empty (seed : UInt32) : (Store.empty seed : Store S).Accounts [] where
  lives entity hlives := by simp [Store.empty] at hlives
  nextId_le_iff bound := by simp [Store.empty]

/-- A call adds the numbers that it uses to the account. Whoever comes to live is placed by the
call, and so has one of these numbers. -/
theorem Accounts.run (haccounts : store.Accounts used) (hsound : store.Sound)
    (hindexed : store.Indexed order) (call : Call S) :
    (call.run store).Accounts (used ++ call.numbers store) where
  lives entity hlives := by
    rw [List.mem_append, Call.mem_numbers_iff]
    exact (hindexed.lives_or_places hsound call hlives).imp_left (haccounts.lives entity)
  nextId_le_iff bound := by
    rw [hsound.nextId_run_le_iff, haccounts.nextId_le_iff, List.forall_mem_append]

theorem Accounts.runAll (haccounts : store.Accounts used) (hsound : store.Sound)
    (hindexed : store.Indexed order) (calls : List (Call S)) :
    (Call.runAll calls store).Accounts (used ++ Call.numbersOf calls store) := by
  induction calls generalizing store order used with
  | nil =>
    rw [Call.numbersOf, List.append_nil]
    exact haccounts
  | cons call calls ih =>
    rw [Call.numbersOf, ← List.append_assoc]
    exact ih (haccounts.run hsound hindexed call) (hsound.run call) (hindexed.run hsound call)

/-- The account of a whole run is that of the numbers its calls have used. -/
theorem accounts_runAll (seed : UInt32) (calls : List (Call S)) :
    (Call.runAll calls (Store.empty seed)).Accounts (Call.numbersOf calls (.empty seed)) :=
  (Accounts.empty seed).runAll (.empty seed) (.empty seed) calls

namespace Accounts

/-- The next number is behind the largest number used, as far as there is one behind it. With none
used it is zero. -/
theorem toNat_nextId (haccounts : store.Accounts used) :
    store.nextId.toNat =
      (used.map UInt32.toNat).max?.elim 0 fun largest => min (largest + 1) (2 ^ 32 - 1) := by
  refine eq_of_forall_ge_iff fun bound => ?_
  rw [haccounts.nextId_le_iff]
  cases hlargest : (used.map UInt32.toNat).max? with
  | none =>
    rw [List.max?_eq_none_iff, List.map_eq_nil_iff] at hlargest
    simp [hlargest]
  | some largest =>
    obtain ⟨hmem, hall⟩ := List.max?_eq_some_iff.mp hlargest
    obtain ⟨last, hlast, rfl⟩ := List.mem_map.mp hmem
    simp only [toNat_following, Option.elim_some]
    refine ⟨fun hbound => hbound last hlast, fun hbound entity hentity => ?_⟩
    have hle := hall entity.toNat (List.mem_map_of_mem hentity)
    omega

/-- The numbers are used up once one of the last two was used. The very last one is never handed
out, but an entity may be placed under it. -/
theorem nextId_eq_last_iff (haccounts : store.Accounts used) :
    store.nextId = lastEntity ↔ ∃ entity ∈ used, 2 ^ 32 - 2 ≤ entity.toNat := by
  have hroom := haccounts.nextId_le_iff (2 ^ 32 - 2)
  have hbound := store.nextId.toNat_lt
  have hlast := toNat_lastEntity
  rw [← UInt32.toNat_inj, hlast]
  constructor
  · intro heq
    by_contra hnone
    have hle := hroom.mpr fun entity hentity => by
      have hsmall : ¬2 ^ 32 - 2 ≤ entity.toNat := fun hlarge => hnone ⟨entity, hentity, hlarge⟩
      rw [toNat_following]
      omega
    omega
  · rintro ⟨entity, hentity, hlarge⟩
    by_contra hne
    have hle := hroom.mp (by omega) entity hentity
    rw [toNat_following] at hle
    omega

/-- A number that is handed out is larger than all that were used, also than those of entities that
have been removed since. -/
theorem lt_of_create (haccounts : store.Accounts used) {components : List (Component S)}
    {after : Store S} (hcreate : store.create components = .ok entity after) {other : EntityId}
    (hother : other ∈ used) : other < entity := by
  obtain ⟨hroom, rfl, _⟩ := create_eq_ok hcreate
  have hle := (haccounts.nextId_le_iff store.nextId.toNat).mp (Nat.le_refl _) other hother
  have hne : store.nextId.toNat ≠ lastEntity.toNat := fun heq => hroom (UInt32.toNat_inj.mp heq)
  have hlast := toNat_lastEntity
  have hbound := store.nextId.toNat_lt
  rw [toNat_following] at hle
  rw [UInt32.lt_iff_toNat_lt]
  omega

end Accounts

/-- The three outcomes of creating an entity. That the numbers are used up comes first, whatever the
components are. -/
theorem create_cases (store : Store S) (components : List (Component S)) :
    (store.nextId = lastEntity ∧ store.create components = .error .idsExhausted store) ∨
    (store.nextId ≠ lastEntity ∧ ¬(components.map Component.type).Nodup ∧
      ∃ name, store.create components = .error (.duplicateComponent name) store) ∨
    (store.nextId ≠ lastEntity ∧ (components.map Component.type).Nodup ∧
      ∃ after, store.create components = .ok store.nextId after) := by
  unfold create
  by_cases hlast : store.nextId = lastEntity
  · exact .inl ⟨hlast, if_pos hlast⟩
  · rw [if_neg hlast]
    rcases Row.ofList_cases components with ⟨row, hrow, hnodup⟩ | ⟨name, hrow, hrepeated⟩
    · exact .inr (.inr ⟨hlast, hnodup, _, by rw [hrow]⟩)
    · exact .inr (.inl ⟨hlast, hrepeated, name, by rw [hrow]⟩)

/-- The three outcomes by what they are due to, so that each can be told from the store and the
components. -/
theorem create_outcomes (store : Store S) (components : List (Component S)) :
    ((∃ after, store.create components = .error .idsExhausted after) ↔
      store.nextId = lastEntity) ∧
    ((∃ name after, store.create components = .error (.duplicateComponent name) after) ↔
      store.nextId ≠ lastEntity ∧ ¬(components.map Component.type).Nodup) ∧
    ((∃ entity after, store.create components = .ok entity after) ↔
      store.nextId ≠ lastEntity ∧ (components.map Component.type).Nodup) := by
  rcases store.create_cases components with
    ⟨hlast, hresult⟩ | ⟨hlast, hnodup, name, hresult⟩ | ⟨hlast, hnodup, after, hresult⟩
  · simp [hresult, hlast]
  · simp [hresult, hlast, hnodup]
  · simp [hresult, hlast, hnodup]

/-- After any calls, failing ones included, the next number is zero if no entity was ever created,
placed or set back, and else one more than the largest number of those that were, as far as there is
one more. Creating an entity fails for want of numbers if one of the last two was ever used,
whatever the components are, and else for a type that occurs twice. Otherwise the entity gets a
number larger than all that were ever used, no entity has ever lived under it, and all entities keep
their rows. -/
theorem create_of_calls (seed : UInt32) (calls : List (Call S)) :
    let store := Call.runAll calls (Store.empty seed)
    let used := Call.numbersOf calls (Store.empty seed)
    store.nextId.toNat =
      ((used.map UInt32.toNat).max?.elim 0 fun largest => min (largest + 1) (2 ^ 32 - 1)) ∧
    ∀ components : List (Component S),
      ((∃ after, store.create components = .error .idsExhausted after) ↔
        ∃ entity ∈ used, 2 ^ 32 - 2 ≤ entity.toNat) ∧
      ((∃ name after, store.create components = .error (.duplicateComponent name) after) ↔
        (∀ entity ∈ used, entity.toNat < 2 ^ 32 - 2) ∧ ¬(components.map Component.type).Nodup) ∧
      ((∃ entity after, store.create components = .ok entity after) ↔
        (∀ entity ∈ used, entity.toNat < 2 ^ 32 - 2) ∧ (components.map Component.type).Nodup) ∧
      ∀ entity after, store.create components = .ok entity after →
        (∀ other ∈ used, other < entity) ∧
        (∀ earlier later, calls = earlier ++ later →
          entity ∉ (Call.runAll earlier (Store.empty seed)).rows) ∧
        ∀ (other : EntityId) (row : Row S), store.rows[other]? = some row →
          after.rows[other]? = some row := by
  intro store used
  have haccounts : store.Accounts used := accounts_runAll seed calls
  have hexhausted := haccounts.nextId_eq_last_iff
  have hroom : (∀ entity ∈ used, entity.toNat < 2 ^ 32 - 2) ↔ store.nextId ≠ lastEntity := by
    rw [Ne, hexhausted]
    simp
  refine ⟨haccounts.toNat_nextId, fun components => ?_⟩
  rw [← hexhausted, hroom]
  obtain ⟨hexhausted, hrepeated, hmade⟩ := store.create_outcomes components
  refine ⟨hexhausted, hrepeated, hmade, fun entity after hcreate => ?_⟩
  have hlarger {other : EntityId} (hother : other ∈ used) : other < entity :=
    haccounts.lt_of_create hcreate hother
  -- Whoever lives has a number that was used before, and the new one is larger than all of these.
  have hnever {earlier later : List (Call S)} (hcalls : calls = earlier ++ later) :
      entity ∉ (Call.runAll earlier (Store.empty seed)).rows := by
    intro hlived
    have hmem := (accounts_runAll seed earlier).lives entity hlived
    have hused : entity ∈ used := by
      rw [show used = Call.numbersOf (earlier ++ later) (.empty seed) from hcalls ▸ rfl,
        Call.numbersOf_append]
      exact List.mem_append_left _ hmem
    exact UInt32.lt_irrefl entity (hlarger hused)
  refine ⟨fun other => hlarger, fun earlier later => hnever, fun other row hrow => ?_⟩
  have hnew : entity ∉ store.rows := hnever (List.append_nil calls).symm
  have hne : entity ≠ other := by
    rintro rfl
    exact hnew (mem_iff_exists_getElem?.mpr ⟨row, hrow⟩)
  obtain ⟨_, rfl, made, _, rfl⟩ := create_eq_ok hcreate
  rw [rows_insertRow, getElem?_rows_insert, if_neg hne, hrow]

end EntityWorld.Store
