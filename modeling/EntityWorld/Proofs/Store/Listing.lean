import EntityWorld.Proofs.Store.Sound

namespace EntityWorld.Store

variable {S : Schema}

/-- In how many ways components of an entity make up a key. Who does not live makes up none. -/
def multiplicity (store : Store S) (entity : EntityId) (key : Key) : Nat :=
  (store.rows[entity]?.map fun row => row.multiplicity store.seed key).getD 0

/-- The entities of an order, each repeated as often as its components make up a key. With the order
in which the live entities were last placed this is what the list under the key holds. -/
def listing (store : Store S) (order : List EntityId) (key : Key) : List EntityId :=
  order.flatMap fun entity => List.replicate (store.multiplicity entity key) entity

/-- How a list is kept under a key: an empty one not at all. -/
def kept (entities : List EntityId) : Option (Array EntityId) :=
  if entities = [] then none else some entities.toArray

/-- The order holds the live entities, and the lists under the keys are those of the order. This is
the invariant of the index. -/
structure Indexed (store : Store S) (order : List EntityId) : Prop where
  nodup : order.Nodup
  mem_iff : ∀ entity, entity ∈ order ↔ entity ∈ store.rows
  buckets : ∀ key, store.buckets[key]? = kept (store.listing order key)

@[simp] theorem kept_nil : kept [] = none := rfl

theorem toList_kept (entities : List EntityId) : ((kept entities).getD #[]).toList = entities := by
  unfold kept
  by_cases hnil : entities = []
  · simp [hnil]
  · simp [hnil]

/-- An entry at the end of what is kept is kept at the end, also if nothing was kept before. -/
theorem kept_push (entities : List EntityId) (entity : EntityId) :
    some (((kept entities).getD #[]).push entity) = kept (entities ++ [entity]) := by
  unfold kept
  by_cases hnil : entities = []
  · simp [hnil]
  · simp [hnil]

/-- Striking an entity from what is kept keeps what is left, which is nothing if nobody is left. -/
theorem kept_filter (entities : List EntityId) (entity : EntityId) :
    (((kept entities).map fun found => found.filter (· != entity)).filter fun found =>
      !found.isEmpty) = kept (entities.filter (· != entity)) := by
  unfold kept
  by_cases hnil : entities = []
  · simp [hnil]
  · by_cases hrest : entities.filter (· != entity) = []
    · simp [hnil, hrest]
    · simp [hnil, hrest]

theorem getElem?_alter (buckets : Std.ExtTreeMap Key (Array EntityId)) (key other : Key)
    (change : Option (Array EntityId) → Option (Array EntityId)) :
    (buckets.alter key change)[other]? =
      if key = other then change buckets[other]? else buckets[other]? := by
  rw [Std.ExtTreeMap.getElem?_alter]
  by_cases heq : key = other
  · subst heq
    simp
  · simp [heq]

/-- Listing an entity adds it once for each time that a key occurs among those of its row. The
induction is over the keys, of which each adds one entry. -/
theorem getElem?_buckets_enlist {store : Store S} {key : Key} {entities : List EntityId}
    (hkept : store.buckets[key]? = kept entities) (entity : EntityId) (row : Row S) :
    (store.enlist entity row).buckets[key]? =
      kept (entities ++ List.replicate (row.multiplicity store.seed key) entity) := by
  rw [← Row.count_keys]
  unfold enlist
  simp only
  generalize row.keys store.seed = keys
  generalize store.buckets = buckets at hkept
  induction keys generalizing buckets entities with
  | nil => simpa using hkept
  | cons first keys ih =>
    rw [List.foldl_cons]
    by_cases heq : first = key
    · have hpushed : (buckets.alter first fun bucket =>
          some ((bucket.getD #[]).push entity))[key]? = kept (entities ++ [entity]) := by
        rw [getElem?_alter, if_pos heq, hkept, kept_push]
      rw [ih _ hpushed, heq, List.count_cons_self, List.append_assoc]
      rfl
    · rw [ih _ ((getElem?_alter ..).trans ((if_neg heq).trans hkept)), List.count_cons_of_ne heq]

/-- Striking an entity takes all its entries out of the lists under the keys of its row, as soon as
the first of these keys comes up. The lists under other keys are not touched. -/
theorem getElem?_buckets_delist {store : Store S} {key : Key} {entities : List EntityId}
    (hkept : store.buckets[key]? = kept entities) (entity : EntityId) (row : Row S) :
    (store.delist entity row).buckets[key]? =
      kept (if row.multiplicity store.seed key = 0 then entities
        else entities.filter (· != entity)) := by
  rw [← Row.count_keys]
  unfold delist
  simp only
  generalize row.keys store.seed = keys
  generalize store.buckets = buckets at hkept
  induction keys generalizing buckets entities with
  | nil => simpa using hkept
  | cons first keys ih =>
    rw [List.foldl_cons]
    by_cases heq : first = key
    · have hstruck : (buckets.alter first fun bucket =>
          (bucket.map fun found => found.filter (· != entity)).filter fun found =>
            !found.isEmpty)[key]? = kept (entities.filter (· != entity)) := by
        rw [getElem?_alter, if_pos heq, hkept, kept_filter]
      rw [ih _ hstruck, heq, List.count_cons_self, if_neg (Nat.succ_ne_zero _), List.filter_filter]
      simp
    · rw [ih _ ((getElem?_alter ..).trans ((if_neg heq).trans hkept)), List.count_cons_of_ne heq]

theorem multiplicity_of_some {store : Store S} {entity : EntityId} {row : Row S} (key : Key)
    (hrow : store.rows[entity]? = some row) :
    store.multiplicity entity key = row.multiplicity store.seed key := by
  rw [multiplicity, hrow]
  rfl

/-- An entity of the order is listed under the keys that its components make up, and under no
others. -/
theorem mem_listing_iff {store : Store S} {order : List EntityId} {entity : EntityId} {key : Key} :
    entity ∈ store.listing order key ↔ entity ∈ order ∧ 0 < store.multiplicity entity key := by
  rw [listing, List.mem_flatMap]
  constructor
  · rintro ⟨found, hfound, hmem⟩
    obtain ⟨hne, rfl⟩ := List.mem_replicate.mp hmem
    exact ⟨hfound, Nat.pos_of_ne_zero hne⟩
  · rintro ⟨hmem, hpos⟩
    exact ⟨entity, hmem, List.mem_replicate.mpr ⟨Nat.ne_of_gt hpos, rfl⟩⟩

theorem listing_append_singleton (store : Store S) (order : List EntityId) (entity : EntityId)
    (key : Key) : store.listing (order ++ [entity]) key =
      store.listing order key ++ List.replicate (store.multiplicity entity key) entity := by
  rw [listing, List.flatMap_append, List.flatMap_singleton]
  rfl

/-- The listing only depends on the seed and on the types in the rows of the order. -/
theorem listing_congr {store other : Store S} {order : List EntityId} (key : Key)
    (hsame : ∀ entity ∈ order, store.multiplicity entity key = other.multiplicity entity key) :
    store.listing order key = other.listing order key :=
  List.flatMap_congr fun entity hentity => by rw [hsame entity hentity]

theorem multiplicity_congr {store other : Store S} {entity : EntityId}
    (hseed : store.seed = other.seed) (htypes : store.typesOf entity = other.typesOf entity)
    (key : Key) : store.multiplicity entity key = other.multiplicity entity key := by
  cases hrow : other.rows[entity]? with
  | none =>
    have hnone : store.rows[entity]? = none := by simpa [typesOf, hrow] using htypes
    simp [multiplicity, hrow, hnone]
  | some row =>
    rw [typesOf_eq_some hrow] at htypes
    obtain ⟨found, hfound, heq⟩ := exists_row_of_typesOf htypes
    rw [multiplicity_of_some key hrow, multiplicity_of_some key hfound, ← Row.count_keys,
      ← Row.count_keys, hseed, Row.keys_congr heq]

/-- Taking an entity out of the order takes all its entries out of the listing. In an order without
repetitions it stands once. -/
theorem filter_listing (store : Store S) {order : List EntityId} (hnodup : order.Nodup)
    (entity : EntityId) (key : Key) :
    (store.listing order key).filter (· != entity) = store.listing (order.erase entity) key := by
  rw [hnodup.erase_eq_filter]
  clear hnodup
  unfold listing
  induction order with
  | nil => rfl
  | cons first order ih =>
    by_cases heq : first = entity
    · subst heq
      simp [ih]
    · simp [ih, heq]

theorem Indexed.empty (seed : UInt32) : (Store.empty seed : Store S).Indexed [] where
  nodup := .nil
  mem_iff entity := by simp [Store.empty]
  buckets key := by
    rw [listing, List.flatMap_nil, kept_nil]
    simp [Store.empty]

/-- Whatever leaves the types in the rows, the seed and the lists alone keeps the lists exact. -/
theorem Indexed.congr {before after : Store S} {order : List EntityId}
    (hindexed : before.Indexed order) (hseed : after.seed = before.seed)
    (htypes : ∀ entity, after.typesOf entity = before.typesOf entity)
    (hbuckets : after.buckets = before.buckets) : after.Indexed order where
  nodup := hindexed.nodup
  mem_iff entity := (hindexed.mem_iff entity).trans (mem_rows_congr (htypes entity)).symm
  buckets key := by
    rw [hbuckets, hindexed.buckets]
    exact congrArg kept
      (listing_congr key fun entity _ => (multiplicity_congr hseed (htypes entity) key).symm)

theorem Indexed.of_sameLayout {before after : Store S} {order : List EntityId}
    (hindexed : before.Indexed order) (hsame : before.SameLayout after) : after.Indexed order :=
  hindexed.congr hsame.seed hsame.types hsame.buckets

/-- A row added under a number that is not in use comes last, in the order and in every list that it
belongs to. -/
theorem Indexed.insertRow {store : Store S} {order : List EntityId} (hindexed : store.Indexed order)
    {entity : EntityId} (hfresh : entity ∉ store.rows) (row : Row S) (next : EntityId) :
    ({ store.insertRow entity row with nextId := next } : Store S).Indexed (order ++ [entity]) where
  nodup := by
    have hnot : entity ∉ order := fun hmem => hfresh ((hindexed.mem_iff entity).mp hmem)
    refine List.nodup_append.mpr ⟨hindexed.nodup, List.nodup_singleton entity, ?_⟩
    rintro found hfound other hother rfl
    exact hnot (List.mem_singleton.mp hother ▸ hfound)
  mem_iff other := by
    simp only [List.mem_append, List.mem_singleton, hindexed.mem_iff, rows_insertRow,
      Std.ExtTreeMap.mem_insert, Std.LawfulEqCmp.compare_eq_iff_eq]
    rw [or_comm, eq_comm]
  buckets key := by
    have hlisted : ((store.learn row).enlist entity row).buckets[key]? =
        kept (store.listing order key ++
          List.replicate (row.multiplicity store.seed key) entity) :=
      getElem?_buckets_enlist (hindexed.buckets key) entity row
    refine hlisted.trans (congrArg kept ?_)
    rw [listing_append_singleton]
    congr 1
    · refine listing_congr key fun other hother => ?_
      have hne : entity ≠ other := fun heq =>
        hfresh ((hindexed.mem_iff entity).mp (heq ▸ hother))
      unfold multiplicity
      simp [getElem?_rows_insert, hne]
    · have hfound : (store.insertRow entity row).rows[entity]? = some row := by simp
      exact congrArg (List.replicate · entity) (multiplicity_of_some key hfound).symm

/-- A row that goes leaves its place in the order, and nothing if there was none. Its entries are
struck under the keys of its own row, where all of them are. -/
theorem Indexed.eraseRow {store : Store S} {order : List EntityId} (hindexed : store.Indexed order)
    (entity : EntityId) : (store.eraseRow entity).Indexed (order.erase entity) where
  nodup := hindexed.nodup.erase entity
  mem_iff other := by
    rw [hindexed.nodup.mem_erase_iff, hindexed.mem_iff, rows_eraseRow, Std.ExtTreeMap.mem_erase,
      Ne, Ne, Std.LawfulEqCmp.compare_eq_iff_eq, eq_comm]
  buckets key := by
    have hothers : (store.eraseRow entity).listing (order.erase entity) key =
        store.listing (order.erase entity) key := by
      refine listing_congr key fun other hother => ?_
      have hne : entity ≠ other := fun heq => by
        subst heq
        exact hindexed.nodup.not_mem_erase hother
      unfold multiplicity
      rw [rows_eraseRow, getElem?_rows_erase, if_neg hne, seed_eraseRow]
    rw [hothers, ← store.filter_listing hindexed.nodup]
    cases hrow : store.rows[entity]? with
    | none =>
      have hnot : entity ∉ order := fun hmem => by
        rw [hindexed.mem_iff, Std.ExtTreeMap.mem_iff_isSome_getElem?, hrow] at hmem
        cases hmem
      rw [store.filter_listing hindexed.nodup, List.erase_of_not_mem hnot, ← hindexed.buckets,
        Store.eraseRow, hrow]
    | some row =>
      have hstruck := getElem?_buckets_delist (hindexed.buckets key) entity row
      rw [Store.eraseRow, hrow]
      refine hstruck.trans (congrArg kept ?_)
      split
      case isFalse => rfl
      case isTrue hzero =>
        refine (List.filter_eq_self.mpr fun other hother => ?_).symm
        have hpos := (mem_listing_iff.mp hother).2
        rw [bne_iff_ne]
        rintro rfl
        rw [multiplicity_of_some key hrow, hzero] at hpos
        exact Nat.lt_irrefl 0 hpos

end EntityWorld.Store
