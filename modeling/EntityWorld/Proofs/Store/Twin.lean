import EntityWorld.Proofs.Store.Placement

namespace EntityWorld

variable {S : Schema}

/-- What an operation answers, whatever state it leaves. -/
def answerOf {ε τ α : Type} : EStateM.Result ε τ α → Except ε α
  | .ok answer _ => .ok answer
  | .error error _ => .error error

namespace Store

/-- Stores that are the same but for the seed and the lists under the keys. What they answer to
calls that do not ask for a list is the same. -/
structure Twin (store other : Store S) : Prop where
  rows : other.rows = store.rows
  factories : other.factories = store.factories
  nextId : other.nextId = store.nextId

theorem Twin.refl (store : Store S) : store.Twin store :=
  ⟨rfl, rfl, rfl⟩

theorem Twin.symm {store other : Store S} (htwin : store.Twin other) : other.Twin store :=
  ⟨htwin.rows.symm, htwin.factories.symm, htwin.nextId.symm⟩

/-- A change of the seed of one of them leaves them so, since the seed and the lists are all it
touches. -/
theorem Twin.reseed {store other : Store S} (htwin : store.Twin other) (seed : UInt32) :
    (store.reseed seed).Twin other := by
  obtain ⟨buckets, heq⟩ := store.reseed_eq seed
  rw [heq]
  exact ⟨htwin.rows, htwin.factories, htwin.nextId⟩

theorem Twin.insertRow {store other : Store S} (htwin : store.Twin other) (entity next : EntityId)
    (row : Row S) :
    ({ store.insertRow entity row with nextId := next } : Store S).Twin
      { other.insertRow entity row with nextId := next } := by
  refine ⟨?_, ?_, rfl⟩
  · exact congrArg (·.insert entity row) htwin.rows
  · rw [factories_insertRow, factories_insertRow, learn, learn, htwin.factories]

/-- Creating an entity is answered in the same way by both, and leaves them so. -/
theorem Twin.create {store other : Store S} (htwin : store.Twin other)
    (components : List (Component S)) :
    answerOf (other.create components) = answerOf (store.create components) ∧
      (stateOf (store.create components)).Twin (stateOf (other.create components)) := by
  unfold Store.create
  rw [htwin.nextId]
  split
  case isTrue => exact ⟨rfl, htwin⟩
  case isFalse =>
    split
    case h_1 => exact ⟨rfl, htwin⟩
    case h_2 row hrow => exact ⟨rfl, htwin.insertRow _ _ row⟩

theorem Twin.register {store other : Store S} (htwin : store.Twin other) (type : TypeId) :
    (store.register type).Twin (other.register type) :=
  ⟨htwin.rows, congrArg (·.insert type.name type) htwin.factories, htwin.nextId⟩

/-- Entities that were placed in ascending order are listed in that order. There is only one order
of them that ascends. -/
theorem Indexed.entities_eq {store : Store S} {order : List EntityId}
    (hindexed : store.Indexed order) (hascending : order.Pairwise (· ≤ ·)) : store.entities = order :=
  hindexed.entities_perm.eq_of_pairwise (fun _ _ _ _ => UInt32.le_antisymm) store.pairwise_entities
    hascending

/-- The next number is beyond all those in use, so an order of placement that ascends still does
when an entity is created. -/
theorem Indexed.pairwise_reorder_create {store : Store S} {order : List EntityId}
    (hsound : store.Sound) (hindexed : store.Indexed order) (hascending : order.Pairwise (· ≤ ·))
    (components : List (Component S)) :
    ((Call.create components).reorder store order).Pairwise (· ≤ ·) := by
  rw [Call.reorder]
  split
  case h_2 => exact hascending
  case h_1 entity after hcreate =>
    obtain ⟨_, rfl, _⟩ := create_eq_ok hcreate
    refine List.pairwise_append.mpr ⟨hascending, List.pairwise_singleton _ _, ?_⟩
    intro earlier hearlier later hlater
    obtain rfl := List.mem_singleton.mp hlater
    obtain ⟨row, hrow⟩ := mem_iff_exists_getElem?.mp ((hindexed.mem_iff earlier).mp hearlier)
    exact UInt32.le_trans (le_following earlier) (hsound.numbered hrow)

/-- A change of the seed lists entities in ascending order, so an order that ascends stays as it
is. -/
theorem Indexed.pairwise_reorder_reseed {store : Store S} {order : List EntityId}
    (hindexed : store.Indexed order) (hascending : order.Pairwise (· ≤ ·)) (seed : UInt32) :
    ((Call.reseed seed).reorder store order).Pairwise (· ≤ ·) := by
  rw [Call.reorder]
  split
  · exact hascending
  · exact hindexed.entities_eq_sortBy ▸ store.pairwise_entities

/-- Twins of one seed whose entities were placed in the same order are the same: the lists under the
keys depend on nothing else. -/
theorem Twin.eq {store other : Store S} (htwin : store.Twin other) {order : List EntityId}
    (hstore : store.Indexed order) (hother : other.Indexed order)
    (hseed : other.seed = store.seed) : other = store := by
  have hbuckets : other.buckets = store.buckets := by
    refine Std.ExtTreeMap.ext_getElem? fun key => ?_
    rw [hother.buckets, hstore.buckets]
    refine congrArg kept (listing_congr key fun entity _ => ?_)
    rw [multiplicity, multiplicity, htwin.rows, hseed]
  obtain ⟨seed, rows, buckets, factories, nextId⟩ := store
  obtain ⟨hrows, hfactories, hnext⟩ := htwin
  cases other
  congr

end Store

end EntityWorld
