import EntityWorld.Proofs.Store.Layout
import Mathlib.Algebra.Order.Ring.Nat

namespace EntityWorld

variable {S : Schema}

/-- The number after a given one. The last number has none behind it and stays, which is what an
allocator does that can count no further. -/
def following (entity : EntityId) : EntityId :=
  if entity = lastEntity then lastEntity else entity + 1

theorem toNat_lastEntity : lastEntity.toNat = 2 ^ 32 - 1 := rfl

theorem toNat_following (entity : EntityId) :
    (following entity).toNat = min (entity.toNat + 1) (2 ^ 32 - 1) := by
  have hbound := entity.toNat_lt
  have hlast := toNat_lastEntity
  by_cases heq : entity = lastEntity
  · rw [following, if_pos heq, heq, hlast]
    rfl
  · have hne : entity.toNat ≠ lastEntity.toNat := fun hnat => heq (UInt32.toNat_inj.mp hnat)
    rw [following, if_neg heq, UInt32.toNat_add, UInt32.toNat_one]
    omega

theorem le_following (entity : EntityId) : entity ≤ following entity := by
  have hbound := entity.toNat_lt
  rw [UInt32.le_iff_toNat_le, toNat_following]
  omega

/-- A number that all those in use have room below is not in use itself. The last number is the
exception, since nothing can be beyond it. -/
theorem not_following_le {entity : EntityId} (hne : entity ≠ lastEntity) :
    ¬ following entity ≤ entity := by
  have hbound := entity.toNat_lt
  have hlast := toNat_lastEntity
  have hnat : entity.toNat ≠ lastEntity.toNat := fun heq => hne (UInt32.toNat_inj.mp heq)
  rw [UInt32.le_iff_toNat_le, toNat_following]
  omega

namespace Store

/-- The conditions that every call keeps: a name is rebuilt by a type of that name, rows are in
order, every name in a row can be rebuilt, and the next number is beyond every number in use. -/
structure Sound (store : Store S) : Prop where
  named : ∀ {name : String} {type : TypeId}, store.factories[name]? = some type → type.name = name
  ascending : ∀ {entity : EntityId} {row : Row S}, store.rows[entity]? = some row → row.Ascending
  known : ∀ {entity : EntityId} {row : Row S}, store.rows[entity]? = some row →
    ∀ type ∈ row.types, type.name ∈ store.factories
  numbered : ∀ {entity : EntityId} {row : Row S}, store.rows[entity]? = some row →
    following entity ≤ store.nextId

theorem Sound.empty (seed : UInt32) : (Store.empty seed : Store S).Sound where
  named hfound := by simp [Store.empty] at hfound
  ascending hfound := by simp [Store.empty] at hfound
  known hfound := by simp [Store.empty] at hfound
  numbered hfound := by simp [Store.empty] at hfound

/-- Types are learned one after another, and one that is known under its name already is not
replaced. -/
theorem learn_cons (store : Store S) (component : Component S) (row : Row S) :
    store.learn (component :: row) =
      { store with
        factories := store.factories.insertIfNew component.name component.type }.learn row := rfl

/-- Learning forgets nothing: what a name was rebuilt by it still is, even if the row has another
type of that name. -/
theorem getElem?_factories_learn_of_some {store : Store S} {row : Row S} {name : String}
    {type : TypeId} (hfound : store.factories[name]? = some type) :
    (store.learn row).factories[name]? = some type := by
  induction row generalizing store with
  | nil => exact hfound
  | cons component row ih =>
    rw [learn_cons]
    apply ih
    have hmem : name ∈ store.factories := mem_iff_exists_getElem?.mpr ⟨type, hfound⟩
    rw [Std.ExtTreeMap.getElem?_insertIfNew, if_neg, hfound]
    rintro ⟨heq, hnot⟩
    rw [Std.LawfulEqOrd.eq_of_compare heq] at hnot
    exact hnot hmem

/-- A type is only learned from a row that holds it, and under its own name. -/
theorem getElem?_factories_learn {store : Store S} {row : Row S} {name : String} {type : TypeId}
    (hfound : (store.learn row).factories[name]? = some type) :
    store.factories[name]? = some type ∨ type ∈ row.types ∧ type.name = name := by
  induction row generalizing store with
  | nil => exact .inl hfound
  | cons component row ih =>
    rw [learn_cons] at hfound
    rcases ih hfound with hbefore | ⟨hmem, hname⟩
    · rw [Std.ExtTreeMap.getElem?_insertIfNew] at hbefore
      split at hbefore
      case isTrue hnew =>
        obtain rfl := Option.some.inj hbefore
        exact .inr ⟨List.mem_cons_self, Std.LawfulEqOrd.eq_of_compare hnew.1⟩
      case isFalse => exact .inl hbefore
    · exact .inr ⟨List.mem_cons_of_mem _ hmem, hname⟩

theorem mem_factories_learn_of_mem {store : Store S} (row : Row S) {name : String}
    (hmem : name ∈ store.factories) : name ∈ (store.learn row).factories := by
  obtain ⟨type, hfound⟩ := mem_iff_exists_getElem?.mp hmem
  exact mem_iff_exists_getElem?.mpr ⟨type, getElem?_factories_learn_of_some hfound⟩

/-- Every name in a row that was learned can be rebuilt, though perhaps by another type of that
name. -/
theorem mem_factories_learn (store : Store S) {row : Row S} {type : TypeId}
    (htype : type ∈ row.types) : type.name ∈ (store.learn row).factories := by
  induction row generalizing store with
  | nil => cases htype
  | cons component row ih =>
    rw [learn_cons]
    rcases List.mem_cons.mp htype with rfl | hrest
    · exact mem_factories_learn_of_mem row Std.ExtTreeMap.mem_insertIfNew_self
    · exact ih _ hrest

@[simp] theorem rows_insertRow (store : Store S) (entity : EntityId) (row : Row S) :
    (store.insertRow entity row).rows = store.rows.insert entity row := rfl

@[simp] theorem factories_insertRow (store : Store S) (entity : EntityId) (row : Row S) :
    (store.insertRow entity row).factories = (store.learn row).factories := rfl

@[simp] theorem seed_insertRow (store : Store S) (entity : EntityId) (row : Row S) :
    (store.insertRow entity row).seed = store.seed := rfl

@[simp] theorem rows_eraseRow (store : Store S) (entity : EntityId) :
    (store.eraseRow entity).rows = store.rows.erase entity := by
  unfold eraseRow
  split
  case h_1 hnone =>
    refine Std.ExtTreeMap.ext_getElem? fun other => ?_
    rw [Std.ExtTreeMap.getElem?_erase]
    split
    case isTrue heq => rw [← Std.LawfulEqOrd.eq_of_compare heq, hnone]
    case isFalse => rfl
  case h_2 => rfl

@[simp] theorem factories_eraseRow (store : Store S) (entity : EntityId) :
    (store.eraseRow entity).factories = store.factories := by
  unfold eraseRow
  split <;> rfl

@[simp] theorem nextId_eraseRow (store : Store S) (entity : EntityId) :
    (store.eraseRow entity).nextId = store.nextId := by
  unfold eraseRow
  split <;> rfl

@[simp] theorem seed_eraseRow (store : Store S) (entity : EntityId) :
    (store.eraseRow entity).seed = store.seed := by
  unfold eraseRow
  split <;> rfl

theorem getElem?_rows_insert (rows : Std.ExtTreeMap EntityId (Row S)) (entity other : EntityId)
    (row : Row S) :
    (rows.insert entity row)[other]? = if entity = other then some row else rows[other]? := by
  simp [Std.ExtTreeMap.getElem?_insert]

theorem getElem?_rows_erase (rows : Std.ExtTreeMap EntityId (Row S)) (entity other : EntityId) :
    (rows.erase entity)[other]? = if entity = other then none else rows[other]? := by
  simp [Std.ExtTreeMap.getElem?_erase]

/-- The conditions say nothing about the seed, the keys and the values of components, so calls that
change only these keep them. -/
theorem Sound.congr {before after : Store S} (hsound : before.Sound)
    (htypes : ∀ entity, after.typesOf entity = before.typesOf entity)
    (hfactories : after.factories = before.factories) (hnext : after.nextId = before.nextId) :
    after.Sound := by
  have hold {entity : EntityId} {row : Row S} (hrow : after.rows[entity]? = some row) :
      ∃ old, before.rows[entity]? = some old ∧ old.types = row.types :=
    exists_row_of_typesOf (by rw [← htypes, typesOf_eq_some hrow])
  refine ⟨fun hfound => hsound.named (hfactories ▸ hfound), fun hrow => ?_, fun hrow => ?_,
    fun hrow => ?_⟩
  · obtain ⟨old, hbefore, heq⟩ := hold hrow
    have hascending := hsound.ascending hbefore
    rwa [Row.Ascending, heq] at hascending
  · obtain ⟨old, hbefore, heq⟩ := hold hrow
    rw [hfactories, ← heq]
    exact hsound.known hbefore
  · obtain ⟨old, hbefore, _⟩ := hold hrow
    rw [hnext]
    exact hsound.numbered hbefore

theorem Sound.of_sameLayout {before after : Store S} (hsound : before.Sound)
    (hsame : before.SameLayout after) : after.Sound :=
  hsound.congr hsame.types hsame.factories hsame.nextId

/-- Taking a row out keeps the conditions: the next number need not go back. -/
theorem Sound.eraseRow {store : Store S} (hsound : store.Sound) (entity : EntityId) :
    (store.eraseRow entity).Sound := by
  have hold {other : EntityId} {row : Row S}
      (hrow : (store.eraseRow entity).rows[other]? = some row) : store.rows[other]? = some row := by
    rw [rows_eraseRow, getElem?_rows_erase] at hrow
    split at hrow
    · cases hrow
    · exact hrow
  refine ⟨fun hfound => ?_, fun hrow => hsound.ascending (hold hrow), fun hrow => ?_, fun hrow => ?_⟩
  · exact hsound.named (by rwa [factories_eraseRow] at hfound)
  · rw [factories_eraseRow]
    exact hsound.known (hold hrow)
  · rw [nextId_eraseRow]
    exact hsound.numbered (hold hrow)

/-- Adding a row keeps the conditions if the next number moves beyond the number of the row. Its
names can be rebuilt, since the store learns from it first. -/
theorem Sound.insertRow {store : Store S} (hsound : store.Sound) {entity next : EntityId}
    {row : Row S} (hrow : row.Ascending) (hnext : store.nextId ≤ next)
    (hentity : following entity ≤ next) :
    ({ store.insertRow entity row with nextId := next } : Store S).Sound := by
  refine ⟨fun hfound => ?_, fun {other found} hfound => ?_, fun {other found} hfound => ?_,
    fun {other found} hfound => ?_⟩
  · rcases getElem?_factories_learn hfound with hbefore | ⟨_, hname⟩
    · exact hsound.named hbefore
    · exact hname
  all_goals
    simp only [rows_insertRow, getElem?_rows_insert] at hfound
    split at hfound
  · obtain rfl := Option.some.inj hfound
    exact hrow
  · exact hsound.ascending hfound
  · obtain rfl := Option.some.inj hfound
    exact fun type htype => mem_factories_learn store htype
  · exact fun type htype => mem_factories_learn_of_mem row (hsound.known hfound type htype)
  case isTrue heq => exact heq ▸ hentity
  case isFalse => exact UInt32.le_trans (hsound.numbered hfound) hnext

/-- What creation does when it succeeds: the next number is used up, and the row of the components
is added under it. -/
theorem create_eq_ok {store after : Store S} {components : List (Component S)} {entity : EntityId}
    (hcreate : store.create components = .ok entity after) :
    store.nextId ≠ lastEntity ∧ entity = store.nextId ∧ ∃ row, Row.ofList components = .ok row ∧
      after = { store.insertRow entity row with nextId := following entity } := by
  unfold create at hcreate
  split at hcreate
  case isTrue => cases hcreate
  case isFalse hroom =>
    split at hcreate
    case h_1 => cases hcreate
    case h_2 row hrow =>
      cases hcreate
      exact ⟨hroom, rfl, row, hrow, by rw [following, if_neg hroom]⟩

/-- What placing does when it succeeds: a row that was there before is struck, the new one is added
behind all others, and the next number moves beyond this one if it has to. -/
theorem place_eq_ok {store after : Store S} {components : List (Component S)} {entity : EntityId}
    (hplace : store.place components entity = .ok () after) :
    ∃ row, Row.ofList components = .ok row ∧
      after = { (store.eraseRow entity).insertRow entity row with
        nextId := max store.nextId (following entity) } := by
  unfold place at hplace
  split at hplace
  case h_1 => cases hplace
  case h_2 row hrow =>
    cases hplace
    exact ⟨row, hrow, rfl⟩

/-- What removal does when it succeeds: it answers the row, and takes it out. Its types stay known,
and its number stays used. -/
theorem remove_eq_ok {store after : Store S} {entity : EntityId} {row : Row S}
    (hremove : store.remove entity = .ok row after) :
    store.rows[entity]? = some row ∧ after = store.eraseRow entity := by
  unfold remove at hremove
  split at hremove
  case h_1 => cases hremove
  case h_2 hrow =>
    cases hremove
    exact ⟨hrow, rfl⟩

end Store

end EntityWorld
