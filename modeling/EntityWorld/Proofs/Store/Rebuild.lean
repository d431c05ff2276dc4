import EntityWorld.Proofs.Store.Restore

namespace EntityWorld

variable {S : Schema}

namespace Row

/-- Taking components down one after another makes each of them readable by its name. The induction
runs over any map that they are added to. -/
theorem getElem?_foldl_insert {row : Row S} (hnames : (row.map Component.name).Nodup)
    (map : RowSnapshot) (name : String) (fields : ComponentSnapshot) :
    (row.foldl (fun map component => map.insert component.name component.snapshot) map)[name]? =
        some fields ↔
      (∃ component ∈ row, component.name = name ∧ component.snapshot = fields) ∨
        name ∉ row.map Component.name ∧ map[name]? = some fields := by
  induction row generalizing map with
  | nil => simp
  | cons component row ih =>
    rw [List.map_cons, List.nodup_cons] at hnames
    rw [List.foldl_cons, ih hnames.2, Std.ExtTreeMap.getElem?_insert, List.map_cons,
      List.mem_cons, not_or]
    by_cases hname : component.name = name
    · subst hname
      have hlater : ¬∃ other ∈ row, other.name = component.name ∧ other.snapshot = fields := by
        rintro ⟨other, hother, hsame, _⟩
        exact hnames.1 (hsame ▸ List.mem_map_of_mem hother)
      simp only [hlater, hnames.1, Std.compare_self, List.exists_mem_cons_iff]
      simp
    · have hne : compare component.name name ≠ .eq := mt Std.LawfulEqCmp.compare_eq_iff_eq.mp hname
      simp [hne, Ne.symm hname, eq_comm]

/-- What is taken down of a row whose types have distinct names: its components, each under its
name. Of two types of one name only the latter would be seen. -/
theorem getElem?_snapshot_eq_some {row : Row S} (hnames : (row.map Component.name).Nodup)
    {name : String} {fields : ComponentSnapshot} :
    row.snapshot[name]? = some fields ↔
      ∃ component ∈ row, component.name = name ∧ component.snapshot = fields := by
  refine (getElem?_foldl_insert hnames ∅ name fields).trans ?_
  simp

/-- In a row in order no name comes twice if its types are told by their names. -/
theorem Ascending.nodup_names {row : Row S} (hrow : row.Ascending)
    (hinjective : ∀ a ∈ row.types, ∀ b ∈ row.types, a.name = b.name → a = b) :
    (row.map Component.name).Nodup := by
  rw [map_name_eq]
  exact hrow.nodup.map_on hinjective

/-- What is found of a type is taken down under its name, which belongs to no other type of the
row. -/
theorem getElem?_snapshot_of_find? {row : Row S} (hnames : (row.map Component.name).Nodup)
    {type : TypeId} {record : Record (S.fields type)} (hfound : row.find? type = some record) :
    row.snapshot[type.name]? = some (Component.snapshot ⟨type, record⟩) := by
  rw [find?_eq_some_iff (nodup_types_of_names hnames)] at hfound
  exact (getElem?_snapshot_eq_some hnames).mpr ⟨_, hfound, rfl, rfl⟩

/-- Rows of the same types of which the same is taken down read alike, field by field. What is taken
down under a name belongs to one type only, so it can be compared type by type. -/
theorem map_get?_find?_of_snapshot_eq {row rebuilt : Row S}
    (hnames : (row.map Component.name).Nodup) (htypes : rebuilt.types = row.types)
    (hsnapshot : rebuilt.snapshot = row.snapshot) (type : TypeId) (field : String) :
    (rebuilt.find? type).map (·.get? _ field) = (row.find? type).map (·.get? _ field) := by
  have hrebuilt : (rebuilt.map Component.name).Nodup := by
    rwa [map_name_eq, htypes, ← map_name_eq]
  have hsome : (rebuilt.find? type).isSome = (row.find? type).isSome := by
    rw [Bool.eq_iff_iff, find?_isSome, find?_isSome, htypes]
  cases hrow : row.find? type with
  | none =>
    rw [hrow, Option.isSome_none, Option.isSome_eq_false_iff, Option.isNone_iff_eq_none] at hsome
    rw [hsome]
  | some record =>
    obtain ⟨other, hother⟩ := Option.isSome_iff_exists.mp (hsome.trans (by rw [hrow]; rfl))
    have hsame : Component.snapshot ⟨type, other⟩ = Component.snapshot ⟨type, record⟩ := by
      have hfields := getElem?_snapshot_of_find? hrebuilt hother
      rw [hsnapshot, getElem?_snapshot_of_find? hnames hrow] at hfields
      exact (Option.some.inj hfields).symm
    have hread := congrArg (fun fields : ComponentSnapshot => fields[field]?) hsame
    simp only [Component.getElem?_snapshot] at hread
    rw [hother]
    exact congrArg some hread

/-- Components with the names and the fields that are taken down of a row, and of types in it. Their
order is that of the names. -/
def Matches (row : Row S) (components : List (Component S)) : Prop :=
  List.Forall₂ (fun named component => component.name = named.1 ∧
    component.snapshot = named.2 ∧ component.type ∈ row.types) row.snapshot.toList components

/-- What is taken down under a name is one component, so no two matches share a name. -/
theorem Matches.nodup_names {row : Row S} {components : List (Component S)}
    (hmatches : row.Matches components) : (components.map Component.name).Nodup := by
  have hkeys : components.map Component.name = row.snapshot.keys := by
    rw [← Std.ExtTreeMap.map_fst_toList_eq_keys]
    exact map_eq_map_of_forall₂ hmatches fun _ _ hnamed => hnamed.1
  exact hkeys ▸ Std.ExtTreeMap.nodup_keys

/-- In a row whose types have distinct names there is one match for each component, of its type. The
names are the same, and each belongs to one type. -/
theorem Matches.types_perm {row : Row S} (hrow : row.Ascending)
    (hinjective : ∀ a ∈ row.types, ∀ b ∈ row.types, a.name = b.name → a = b)
    {components : List (Component S)} (hmatches : row.Matches components) :
    (components.map Component.type).Perm row.types := by
  have hnodup := nodup_types_of_names hmatches.nodup_names
  refine (List.perm_ext_iff_of_nodup hnodup hrow.nodup).mpr fun type => ⟨fun htype => ?_,
    fun htype => ?_⟩
  · obtain ⟨component, hmem, rfl⟩ := List.mem_map.mp htype
    obtain ⟨_, _, _, _, hfound⟩ := exists_of_mem_forall₂ hmatches hmem
    exact hfound
  · obtain ⟨component, hmem, rfl⟩ := List.mem_map.mp htype
    have hnamed : (component.name, component.snapshot) ∈ row.snapshot.toList := by
      rw [Std.ExtTreeMap.mem_toList_iff_getElem?_eq_some,
        getElem?_snapshot_eq_some (hrow.nodup_names hinjective)]
      exact ⟨component, hmem, rfl, rfl⟩
    obtain ⟨other, hother, hname, _, hfound⟩ := exists_of_mem_forall₂ hmatches.flip hnamed
    rw [← hinjective other.type hfound component.type htype hname]
    exact List.mem_map_of_mem hother

/-- Of a row of matches the same is taken down, since that does not depend on the order of a row. -/
theorem Matches.snapshot_eq {row rebuilt : Row S} {components : List (Component S)}
    (hmatches : row.Matches components) (hperm : rebuilt.Perm components) :
    rebuilt.snapshot = row.snapshot := by
  have hnames : (rebuilt.map Component.name).Nodup :=
    (hperm.map Component.name).nodup_iff.mpr hmatches.nodup_names
  refine Std.ExtTreeMap.ext_getElem? fun name => Option.ext fun fields => ?_
  rw [getElem?_snapshot_eq_some hnames]
  constructor
  · rintro ⟨component, hmem, rfl, rfl⟩
    obtain ⟨named, hnamed, hname, hfields, _⟩ :=
      exists_of_mem_forall₂ hmatches (hperm.mem_iff.mp hmem)
    rw [hname, hfields]
    exact Std.ExtTreeMap.mem_toList_iff_getElem?_eq_some.mp hnamed
  · intro hfound
    obtain ⟨component, hmem, hname, hfields, _⟩ := exists_of_mem_forall₂ hmatches.flip
      (Std.ExtTreeMap.mem_toList_iff_getElem?_eq_some.mpr hfound)
    exact ⟨component, hperm.mem_iff.mpr hmem, hname, hfields⟩

/-- Matches make a row of the same types of which the same is taken down. Their order is that of the
names, and making the row puts them in that of the types. -/
theorem Matches.exists_ofList {row : Row S} (hrow : row.Ascending)
    (hinjective : ∀ a ∈ row.types, ∀ b ∈ row.types, a.name = b.name → a = b)
    {components : List (Component S)} (hmatches : row.Matches components) :
    ∃ rebuilt, ofList components = .ok rebuilt ∧ rebuilt.types = row.types ∧
      rebuilt.snapshot = row.snapshot := by
  have htypes := hmatches.types_perm hrow hinjective
  obtain ⟨rebuilt, hrebuilt⟩ := exists_ofList_eq_ok (htypes.nodup_iff.mpr hrow.nodup)
  obtain ⟨hascending, hperm⟩ := ofList_eq_ok hrebuilt
  have hsame := (hperm.map Component.type).trans htypes
  exact ⟨rebuilt, hrebuilt, hascending.types_eq_of_perm hrow hsame, hmatches.snapshot_eq hperm⟩

end Row

namespace Store

/-- All components that live in a store can be rebuilt by another one, each by its own type. -/
def Registers (registry store : Store S) : Prop :=
  ∀ ⦃entity : EntityId⦄ ⦃row : Row S⦄, store.rows[entity]? = some row →
    ∀ type ∈ row.types, registry.factories[type.name]? = some type

/-- A component is rebuilt as one of the same type of which the same is taken down. It starts from
defaults, and all of its fields are set. -/
theorem exists_rebuild {registry : Store S} {component : Component S}
    (hknown : registry.factories[component.name]? = some component.type) :
    ∃ rebuilt, registry.rebuild component.name component.snapshot = .ok rebuilt ∧
      rebuilt.type = component.type ∧ rebuilt.snapshot = component.snapshot := by
  obtain ⟨rebuilt, hset, htype, hsame⟩ :=
    @Component.exists_setAll_snapshot S component (.initial component.type) rfl
  refine ⟨rebuilt, ?_, htype, hsame⟩
  rw [rebuild, build?, hknown]
  simp only [Option.map_some, hset]
  rfl

/-- Types that are rebuilt by their names differ in their names: a name is rebuilt by one type. -/
theorem name_injective_of_known {registry : Store S} {types : List TypeId}
    (hknown : ∀ type ∈ types, registry.factories[type.name]? = some type) :
    ∀ a ∈ types, ∀ b ∈ types, a.name = b.name → a = b := by
  intro a ha b hb hname
  have hfound := hknown a ha
  rw [hname, hknown b hb] at hfound
  exact (Option.some.inj hfound).symm

/-- In a store whose components can all be rebuilt no row has a name twice, so what is taken down of
a row tells its components apart. -/
theorem Sound.nodup_names {registry store : Store S} (hsound : store.Sound)
    (hregisters : registry.Registers store) {entity : EntityId} {row : Row S}
    (hrow : store.rows[entity]? = some row) : (row.map Component.name).Nodup :=
  (hsound.ascending hrow).nodup_names (name_injective_of_known (hregisters hrow))

/-- What is taken down of a row is rebuilt as a row of the same types of which the same is taken
down. -/
theorem exists_rebuild_row {registry : Store S} {row : Row S} (hrow : row.Ascending)
    (hknown : ∀ type ∈ row.types, registry.factories[type.name]? = some type) :
    ∃ components rebuilt,
      List.Forall₂ (fun named component => registry.rebuild named.1 named.2 = .ok component)
        row.snapshot.toList components ∧
      Row.ofList components = .ok rebuilt ∧ rebuilt.types = row.types ∧
      rebuilt.snapshot = row.snapshot := by
  have hinjective := name_injective_of_known hknown
  have hnames := hrow.nodup_names hinjective
  have hitems : ∀ named ∈ row.snapshot.toList, ∃ component,
      registry.rebuild named.1 named.2 = .ok component ∧ component.name = named.1 ∧
        component.snapshot = named.2 ∧ component.type ∈ row.types := by
    intro named hnamed
    rw [Std.ExtTreeMap.mem_toList_iff_getElem?_eq_some, Row.getElem?_snapshot_eq_some hnames]
      at hnamed
    obtain ⟨component, hmem, hname, hfields⟩ := hnamed
    have htype : component.type ∈ row.types := List.mem_map_of_mem hmem
    obtain ⟨rebuilt, hbuilt, hsame, hsnapshot⟩ := exists_rebuild (hknown component.type htype)
    refine ⟨rebuilt, ?_, ?_, hsnapshot.trans hfields, hsame ▸ htype⟩
    · rw [← hname, ← hfields]
      exact hbuilt
    · rw [← hname, Component.name, hsame]
      rfl
  obtain ⟨components, hcomponents⟩ := exists_forall₂ hitems
  have hmatches : row.Matches components := hcomponents.imp fun _ _ hnamed => hnamed.2
  obtain ⟨rebuilt, hrebuilt⟩ := hmatches.exists_ofList hrow hinjective
  exact ⟨components, rebuilt, hcomponents.imp fun _ _ hnamed => hnamed.1, hrebuilt⟩

/-- What is placed for an entry of a store: a row of the same types of which the same is taken
down. -/
def Rebuilds (entry : EntityId × Row S) (built : EntityId × List (Component S)) : Prop :=
  built.1 = entry.1 ∧ ∃ row, Row.ofList built.2 = .ok row ∧ row.types = entry.2.types ∧
    row.snapshot = entry.2.snapshot

/-- A store that knows the types of another one rebuilds all of its rows. It may have rows of its
own, which play no part in this. -/
theorem exists_buildRows {registry store : Store S} (hsound : store.Sound)
    (hregisters : registry.Registers store) :
    ∃ built, registry.buildRows store.snapshot = .ok built ∧
      List.Forall₂ Rebuilds store.rows.toList built := by
  have hentries : ∀ entry ∈ store.rows.toList, ∃ built : EntityId × List (Component S),
      (built.1 = entry.1 ∧
        List.Forall₂ (fun named component => registry.rebuild named.1 named.2 = .ok component)
          entry.2.snapshot.toList built.2) ∧ Rebuilds entry built := by
    intro entry hentry
    have hrow := Std.ExtTreeMap.mem_toList_iff_getElem?_eq_some.mp hentry
    obtain ⟨components, rebuilt, hcomponents, hrebuilt⟩ :=
      exists_rebuild_row (hsound.ascending hrow) (hregisters hrow)
    exact ⟨(entry.1, components), ⟨rfl, hcomponents⟩, rfl, rebuilt, hrebuilt⟩
  obtain ⟨built, hbuilt⟩ := exists_forall₂ hentries
  refine ⟨built, ?_, hbuilt.imp fun _ _ hentry => hentry.2⟩
  rw [buildRows_eq_ok_iff, snapshot, Std.ExtTreeMap.toList_map, List.forall₂_map_left_iff]
  exact hbuilt.imp fun _ _ hentry => hentry.1

/-- Nothing is learned from a row whose names are all known. -/
theorem factories_learn_of_known {store : Store S} {row : Row S}
    (hknown : ∀ type ∈ row.types, type.name ∈ store.factories) :
    (store.learn row).factories = store.factories := by
  refine Std.ExtTreeMap.ext_getElem? fun name => Option.ext fun type => ⟨fun hfound => ?_,
    getElem?_factories_learn_of_some⟩
  rcases getElem?_factories_learn hfound with hbefore | ⟨hmem, hname⟩
  · exact hbefore
  · obtain ⟨other, hother⟩ := mem_iff_exists_getElem?.mp (hname ▸ hknown type hmem)
    rw [getElem?_factories_learn_of_some hother] at hfound
    rw [hother, hfound]

/-- A store after entries of another store have been set back in it: rows of the same types of which
the same is taken down, all other rows as they were, and a next number that is beyond all of them
and no further. -/
structure Refilled (before : Store S) (entries : List (EntityId × Row S)) (after : Store S) :
    Prop where
  seed : after.seed = before.seed
  factories : after.factories = before.factories
  listed : ∀ entry ∈ entries, ∃ row, after.rows[entry.1]? = some row ∧
    row.types = entry.2.types ∧ row.snapshot = entry.2.snapshot
  others : ∀ entity, entity ∉ entries.map Prod.fst → after.rows[entity]? = before.rows[entity]?
  nextId_le : ∀ bound, before.nextId ≤ bound → (∀ entry ∈ entries, following entry.1 ≤ bound) →
    after.nextId ≤ bound
  le_nextId : before.nextId ≤ after.nextId ∧ ∀ entry ∈ entries, following entry.1 ≤ after.nextId

theorem Refilled.nil (store : Store S) : store.Refilled [] store where
  seed := rfl
  factories := rfl
  listed := by simp
  others _ _ := rfl
  nextId_le _ hbound _ := hbound
  le_nextId := ⟨UInt32.le_refl _, by simp⟩

/-- Setting back more entries, none of which was set back before, keeps the first ones as they
are. -/
theorem Refilled.append {before middle after : Store S} {first rest : List (EntityId × Row S)}
    (hfirst : before.Refilled first middle) (hrest : middle.Refilled rest after)
    (hfresh : ∀ entry ∈ first, entry.1 ∉ rest.map Prod.fst) :
    before.Refilled (first ++ rest) after where
  seed := hrest.seed.trans hfirst.seed
  factories := hrest.factories.trans hfirst.factories
  listed entry hentry := by
    rcases List.mem_append.mp hentry with hmem | hmem
    · rw [hrest.others entry.1 (hfresh entry hmem)]
      exact hfirst.listed entry hmem
    · exact hrest.listed entry hmem
  others entity hentity := by
    rw [List.map_append, List.mem_append, not_or] at hentity
    rw [hrest.others entity hentity.2, hfirst.others entity hentity.1]
  nextId_le bound hbound hentries := by
    have hmiddle := hfirst.nextId_le bound hbound fun entry hentry =>
      hentries entry (List.mem_append_left rest hentry)
    exact hrest.nextId_le bound hmiddle fun entry hentry =>
      hentries entry (List.mem_append_right first hentry)
  le_nextId := by
    refine ⟨UInt32.le_trans hfirst.le_nextId.1 hrest.le_nextId.1, fun entry hentry => ?_⟩
    rcases List.mem_append.mp hentry with hmem | hmem
    · exact UInt32.le_trans (hfirst.le_nextId.2 entry hmem) hrest.le_nextId.1
    · exact hrest.le_nextId.2 entry hmem

theorem exists_place_of_rebuilds {store : Store S} {entry : EntityId × Row S}
    {built : EntityId × List (Component S)} (hbuilt : Rebuilds entry built)
    (hknown : ∀ type ∈ entry.2.types, type.name ∈ store.factories) :
    ∃ after, store.place built.2 built.1 = .ok () after ∧ store.Refilled [entry] after := by
  obtain ⟨_, row⟩ := entry
  obtain ⟨entity, components⟩ := built
  obtain ⟨rfl, rebuilt, hrow, htypes, hsnapshot⟩ := hbuilt
  have hmax (bound : EntityId) : max store.nextId (following entity) ≤ bound ↔
      store.nextId ≤ bound ∧ following entity ≤ bound := by
    simp only [UInt32.le_iff_toNat_le, UInt32.toNat_max]
    omega
  obtain ⟨hnext, hfollowing⟩ := (hmax _).mp (UInt32.le_refl _)
  refine ⟨_, by rw [place, hrow], ?_, ?_, ?_, ?_, ?_, ?_⟩
  · simp
  · change ((store.eraseRow entity).learn rebuilt).factories = store.factories
    rw [factories_learn_of_known, factories_eraseRow]
    rw [htypes, factories_eraseRow]
    exact hknown
  · intro entry hentry
    obtain rfl := List.mem_singleton.mp hentry
    exact ⟨rebuilt, by simp, htypes, hsnapshot⟩
  · intro other hother
    have hne : entity ≠ other := by simpa [eq_comm] using hother
    rw [rows_insertRow, getElem?_rows_insert, if_neg hne, rows_eraseRow, getElem?_rows_erase,
      if_neg hne]
  · intro bound hbound hentries
    exact (hmax bound).mpr ⟨hbound, hentries _ List.mem_cons_self⟩
  · refine ⟨hnext, fun entry hentry => ?_⟩
    obtain rfl := List.mem_singleton.mp hentry
    exact hfollowing

/-- Placing what was rebuilt of all entries sets them all back. The induction is over the entries,
and no two of them are for one entity. -/
theorem exists_placeAll_of_rebuilds {store : Store S} {entries : List (EntityId × Row S)}
    {built : List (EntityId × List (Component S))} (hbuilt : List.Forall₂ Rebuilds entries built)
    (hnodup : (entries.map Prod.fst).Nodup)
    (hknown : ∀ entry ∈ entries, ∀ type ∈ entry.2.types, type.name ∈ store.factories) :
    ∃ after, store.placeAll built = .ok () after ∧ store.Refilled entries after := by
  induction hbuilt generalizing store with
  | nil => exact ⟨store, rfl, .nil store⟩
  | @cons entry placed entries built hfirst _ ih =>
    rw [List.map_cons, List.nodup_cons] at hnodup
    obtain ⟨middle, hplace, hmiddle⟩ :=
      exists_place_of_rebuilds hfirst (hknown entry List.mem_cons_self)
    obtain ⟨after, hplaced, hafter⟩ := @ih middle hnodup.2 fun other hother => by
      rw [hmiddle.factories]
      exact hknown other (List.mem_cons_of_mem entry hother)
    refine ⟨after, ?_, hmiddle.append hafter fun other hother => ?_⟩
    · rw [placeAll, hplace]
      exact hplaced
    · exact List.mem_singleton.mp hother ▸ hnodup.1

/-- Setting a store back to what was taken down of a store whose types it knows succeeds. All rows
are built, and then placing them cannot fail. -/
theorem exists_restore {registry store : Store S} (hsound : store.Sound)
    (hregisters : registry.Registers store) :
    ∃ after, registry.restore store.snapshot = .ok () after ∧
      registry.Refilled store.rows.toList after := by
  obtain ⟨built, hbuilt, hrebuilds⟩ := exists_buildRows hsound hregisters
  have hnodup : (store.rows.toList.map Prod.fst).Nodup := by
    rw [Std.ExtTreeMap.map_fst_toList_eq_keys]
    exact Std.ExtTreeMap.nodup_keys
  obtain ⟨after, hplaced, hafter⟩ := exists_placeAll_of_rebuilds hrebuilds hnodup
    fun entry hentry type htype => by
      have hrow := Std.ExtTreeMap.mem_toList_iff_getElem?_eq_some.mp hentry
      exact mem_iff_exists_getElem?.mpr ⟨type, hregisters hrow type htype⟩
  exact ⟨after, restore_eq_ok_iff.mpr ⟨built, hbuilt, hplaced⟩, hafter⟩

end Store

end EntityWorld
