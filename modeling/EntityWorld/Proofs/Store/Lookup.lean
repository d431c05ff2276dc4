import EntityWorld.Proofs.Store.Placement
import EntityWorld.Zoo

namespace EntityWorld.Store

variable {S : Schema} {store : Store S} {order : List EntityId} {entity : EntityId} {key : Key}

/-- An entity is live, and for each of some names it has a component of that name. -/
def Owns (store : Store S) (entity : EntityId) (names : List String) : Prop :=
  ∃ row, store.rows[entity]? = some row ∧ names ⊆ row.map Component.name

/-- The names of each live row are distinct, and together with some other names none of them cancel
out. -/
def Separates (store : Store S) (names : List String) : Prop :=
  ∀ (entity : EntityId) (row : Row S), store.rows[entity]? = some row →
    (row.map Component.name).Nodup ∧
      Key.Independent (names ++ row.map Component.name) store.seed

/-- An order without repetitions lists nobody twice where no row makes up a key twice. -/
theorem nodup_listing (hnodup : order.Nodup)
    (hle : ∀ entity ∈ order, store.multiplicity entity key ≤ 1) :
    (store.listing order key).Nodup := by
  refine List.nodup_flatMap.mpr ⟨fun entity hentity => ?_, hnodup.imp fun hne => ?_⟩
  · exact List.nodup_replicate.mpr (hle entity hentity)
  · intro found hleft hright
    obtain ⟨_, rfl⟩ := List.mem_replicate.mp hleft
    exact hne (List.mem_replicate.mp hright).2

/-- What is kept under a key reads as the listing, also where nothing is kept. -/
theorem Indexed.toList_bucket (hindexed : store.Indexed order) (key : Key) :
    ((store.bucket? key).getD #[]).toList = store.listing order key := by
  rw [bucket?, hindexed.buckets, toList_kept]

/-- Who has a component of each name is listed under the key of the names, whether or not names
cancel out. -/
theorem Owns.multiplicity_pos {names : List String} (howned : store.Owns entity names)
    (hnames : names.Nodup) (hne : names ≠ []) :
    0 < store.multiplicity entity (store.keyOf names) := by
  obtain ⟨row, hrow, hsub⟩ := howned
  rw [multiplicity_of_some _ hrow]
  exact Row.multiplicity_pos_of_names hnames hne hsub store.seed

/-- Where no names cancel out, nobody is listed under a key of names twice. Two parts of a row with
one key would cancel each other out. -/
theorem Separates.multiplicity_le_one {names : List String} (hseparates : store.Separates names)
    (hnames : names.Nodup) (hne : names ≠ []) (entity : EntityId) :
    store.multiplicity entity (store.keyOf names) ≤ 1 := by
  cases hrow : store.rows[entity]? with
  | none => simp [multiplicity, hrow]
  | some row =>
    obtain ⟨hdistinct, hfree⟩ := hseparates entity row hrow
    rw [multiplicity_of_some _ hrow, keyOf, Row.multiplicity_ofNames hdistinct hnames hne hfree]
    split <;> omega

/-- Where no names cancel out, nobody is listed under the key of names that it does not have. -/
theorem Separates.owns_of_multiplicity_pos {names : List String}
    (hseparates : store.Separates names) (hnames : names.Nodup) (hne : names ≠ [])
    (hpos : 0 < store.multiplicity entity (store.keyOf names)) : store.Owns entity names := by
  cases hrow : store.rows[entity]? with
  | none => simp [multiplicity, hrow] at hpos
  | some row =>
    obtain ⟨hdistinct, hfree⟩ := hseparates entity row hrow
    rw [multiplicity_of_some _ hrow, keyOf, Row.multiplicity_ofNames hdistinct hnames hne hfree]
      at hpos
    refine ⟨row, hrow, ?_⟩
    by_contra hlacks
    simp [hlacks] at hpos

/-- In any store that calls lead to, the list under the key of distinct names, in whatever order
these are given, holds all entities that have a component of each name. Where none of the names
cancel out, also together with the names in any one row, it holds each of these entities once and no
others. -/
theorem lookup_of_names (hreachable : store.Reachable) {names : List String}
    (hnames : names.Nodup) (hne : names ≠ []) :
    let found := ((store.bucket? (store.keyOf names)).getD #[]).toList
    (∀ entity, store.Owns entity names → entity ∈ found) ∧
    (store.Separates names →
      found.Nodup ∧ ∀ entity, entity ∈ found ↔ store.Owns entity names) := by
  intro found
  obtain ⟨order, hindexed⟩ := hreachable.exists_indexed
  have hfound : found = store.listing order (store.keyOf names) := hindexed.toList_bucket _
  have hcomplete (entity : EntityId) (howned : store.Owns entity names) : entity ∈ found := by
    rw [hfound, mem_listing_iff, hindexed.mem_iff, mem_iff_exists_getElem?]
    exact ⟨howned.imp fun _ hrow => hrow.1, howned.multiplicity_pos hnames hne⟩
  refine ⟨hcomplete, fun hseparates => ⟨?_, fun entity => ⟨fun hmem => ?_, hcomplete entity⟩⟩⟩
  · rw [hfound]
    exact nodup_listing hindexed.nodup fun entity _ =>
      hseparates.multiplicity_le_one hnames hne entity
  · rw [hfound, mem_listing_iff] at hmem
    exact hseparates.owns_of_multiplicity_pos hnames hne hmem.2

/-- In a store with entities of one and of two components the latter is found by its names, in the
order opposite to that of its row. -/
theorem lookup_of_names_pair :
    let store : Store Zoo.schema := Call.runAll
      [.create [.initial { name := "zoo::A" }],
        .create [.initial { name := "zoo::A" }, .initial { name := "zoo::B" }]] (.empty 7)
    let names := ["zoo::B", "zoo::A"]
    store.Reachable ∧ names.Nodup ∧ names ≠ [] ∧ store.Separates names ∧
      ((store.bucket? (store.keyOf names)).getD #[]).toList = [1] ∧ store.Owns 1 names := by
  intro store names
  have hreachable : store.Reachable := ⟨7, _, rfl⟩
  have hnames : names.Nodup := by decide
  have hne : names ≠ [] := by decide
  have hseparates : store.Separates names := by
    have hrows : ∀ entry ∈ store.rows.toList, (entry.2.map Component.name).Nodup ∧
        Key.Independent (names ++ entry.2.map Component.name) store.seed := by
      decide +kernel
    intro entity row hrow
    exact hrows (entity, row) (Std.ExtTreeMap.mem_toList_iff_getElem?_eq_some.mpr hrow)
  have hfound : ((store.bucket? (store.keyOf names)).getD #[]).toList = [1] := by decide +kernel
  obtain ⟨_, hexact⟩ := lookup_of_names hreachable hnames hne
  refine ⟨hreachable, hnames, hne, hseparates, hfound, ((hexact hseparates).2 1).mp ?_⟩
  rw [hfound]
  exact List.mem_singleton_self 1

end EntityWorld.Store
