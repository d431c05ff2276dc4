import EntityWorld.Proofs.Overwrite
import EntityWorld.Proofs.Store.Reachable

namespace EntityWorld.Store

variable {S : Schema}

/-- A store knows a type of the name, and every listed field of it fits. Fields that are not listed
take their defaults, and so ask for nothing. -/
def CanRebuild (store : Store S) (name : String) (fields : ComponentSnapshot) : Prop :=
  ∃ type, store.factories[name]? = some type ∧
    ∀ field value, fields[field]? = some value → S.Fits type field value

/-- What is at fault with a listed component: the store knows no type of the name, or else the first
of the listed fields that does not fit, in ascending order of their names. -/
inductive RebuildFault (store : Store S) (name : String) (fields : ComponentSnapshot) : Error → Prop
  | unknown (missing : store.factories[name]? = none) :
      RebuildFault store name fields (.unknownComponent name)
  | field {type : TypeId} {field : String} {value : Value} {cause : FieldError}
      (known : store.factories[name]? = some type) (listed : fields[field]? = some value)
      (first : ∀ earlier, compare earlier field = .lt → ∀ value, fields[earlier]? = some value →
        S.Fits type earlier value)
      (fault : S.Fault type field value cause) : RebuildFault store name fields (.field cause)

theorem nodup_map_fst_toList {α β : Type} [Ord α] [Std.TransOrd α] [Std.LawfulEqOrd α]
    (map : Std.ExtTreeMap α β) : (map.toList.map Prod.fst).Nodup := by
  rw [Std.ExtTreeMap.map_fst_toList_eq_keys]
  exact Std.ExtTreeMap.nodup_keys

/-- A listed component is built with its listed fields and the defaults of all others, or something
is at fault with it. -/
theorem rebuild_cases (store : Store S) (name : String) (fields : ComponentSnapshot) :
    (∃ component, store.rebuild name fields = .ok component ∧ store.CanRebuild name fields ∧
      store.factories[name]? = some component.type ∧
      (Component.initial component.type).Overwritten (fields[·]?) component) ∨
    ¬store.CanRebuild name fields ∧
      ∃ error, store.rebuild name fields = .error error ∧ store.RebuildFault name fields error := by
  unfold rebuild build?
  cases hknown : store.factories[name]? with
  | none =>
    refine .inr ⟨?_, _, rfl, .unknown hknown⟩
    rintro ⟨type, hfound, _⟩
    cases hknown.symm.trans hfound
  | some type =>
    have hlookup : (fields.toList.lookup ·) = (fields[·]?) := funext (lookup_toList fields)
    simp only [Option.map_some]
    rcases (Component.initial type : Component S).setAll_cases (nodup_map_fst_toList fields) with
      ⟨component, hall, hfits, hcomponent⟩ |
        ⟨before, entry, later, cause, hsplit, hbefore, hfault, hall⟩
    · rw [hall]
      rw [forall_mem_toList_iff] at hfits
      rw [hlookup] at hcomponent
      have htype : component.type = type := hcomponent.type_eq
      exact .inl
        ⟨component, rfl, ⟨type, hknown, hfits⟩, congrArg some htype.symm, htype ▸ hcomponent⟩
    · rw [hall]
      obtain ⟨field, value, hlisted, hfirst, hfault⟩ :=
        (exists_first_toList_iff (P := S.Fits type) (Q := (S.Fault type · · cause))).mp
          ⟨before, entry, later, hsplit, hbefore, hfault⟩
      refine .inr ⟨?_, _, rfl, .field hknown hlisted hfirst hfault⟩
      rintro ⟨other, hother, hfits⟩
      obtain rfl := Option.some.inj (hknown.symm.trans hother)
      exact (hfits field value hlisted).not_fault hfault

theorem exists_rebuild_iff {store : Store S} {name : String} {fields : ComponentSnapshot} :
    (∃ component, store.rebuild name fields = .ok component) ↔ store.CanRebuild name fields := by
  rcases store.rebuild_cases name fields with
    ⟨component, hbuilt, hcan, _⟩ | ⟨hnot, error, hfailed, _⟩
  · exact iff_of_true ⟨component, hbuilt⟩ hcan
  · refine iff_of_false ?_ hnot
    rintro ⟨component, hbuilt⟩
    cases hfailed.symm.trans hbuilt

/-- When a component is not built, the error tells what is at fault with it. -/
theorem rebuildFault_of_error {store : Store S} {name : String} {fields : ComponentSnapshot}
    {error : Error} (hfailed : store.rebuild name fields = .error error) :
    store.RebuildFault name fields error := by
  rcases store.rebuild_cases name fields with ⟨component, hbuilt, _⟩ | ⟨_, cause, hcause, hfault⟩
  · cases hfailed.symm.trans hbuilt
  · obtain rfl := Except.error.inj (hfailed.symm.trans hcause)
    exact hfault

/-- A store can build every component that is listed for one entity. -/
def CanRebuildRow (store : Store S) (components : RowSnapshot) : Prop :=
  ∀ name fields, components[name]? = some fields → store.CanRebuild name fields

/-- A store can build every component that is listed at all. -/
def CanRestore (store : Store S) (snapshot : Snapshot) : Prop :=
  ∀ (entity : EntityId) (components : RowSnapshot), snapshot[entity]? = some components →
    store.CanRebuildRow components

/-- The first listed component that a store cannot build, in ascending order of the entities and
then of the names, and what is at fault with it. -/
inductive RestoreFault (store : Store S) (snapshot : Snapshot) (error : Error) : Prop
  | intro {entity : EntityId} {components : RowSnapshot} {name : String}
      {fields : ComponentSnapshot} (listed : snapshot[entity]? = some components)
      (named : components[name]? = some fields)
      (entities : ∀ earlier, compare earlier entity = .lt →
        ∀ components, snapshot[earlier]? = some components → store.CanRebuildRow components)
      (names : ∀ earlier, compare earlier name = .lt →
        ∀ fields, components[earlier]? = some fields → store.CanRebuild earlier fields)
      (fault : store.RebuildFault name fields error)

/-- The components of one entity, built one after another. -/
def rebuildRow (store : Store S) (components : RowSnapshot) : Except Error (List (Component S)) :=
  components.toList.mapM fun (name, fields) => store.rebuild name fields

theorem exists_rebuildRow_iff {store : Store S} {components : RowSnapshot} :
    (∃ row, store.rebuildRow components = .ok row) ↔ store.CanRebuildRow components := by
  rw [CanRebuildRow, ← forall_mem_toList_iff]
  simp only [← exists_rebuild_iff, rebuildRow, mapM_eq_ok_iff]
  constructor
  · rintro ⟨row, hrow⟩ named hnamed
    obtain ⟨component, _, hbuilt⟩ := exists_of_mem_forall₂ hrow.flip hnamed
    exact ⟨component, hbuilt⟩
  · exact exists_forall₂

/-- A failure to build the components of an entity is about the first that cannot be built, in the
order of their names. -/
theorem exists_fault_of_rebuildRow {store : Store S} {components : RowSnapshot} {error : Error}
    (hfailed : store.rebuildRow components = .error error) :
    ∃ name fields, components[name]? = some fields ∧
      (∀ earlier, compare earlier name = .lt →
        ∀ fields, components[earlier]? = some fields → store.CanRebuild earlier fields) ∧
      store.RebuildFault name fields error := by
  obtain ⟨before, named, after, hsplit, hbefore, hnamed⟩ := mapM_eq_error_iff.mp hfailed
  refine (exists_first_toList_iff (P := store.CanRebuild) (Q := (store.RebuildFault · · error))).mp
    ⟨before, named, after, hsplit, fun earlier hearlier => ?_, rebuildFault_of_error hnamed⟩
  exact exists_rebuild_iff.mp (hbefore earlier hearlier)

theorem buildRows_eq (store : Store S) (snapshot : Snapshot) :
    store.buildRows snapshot = snapshot.toList.mapM fun (entity, components) =>
      (store.rebuildRow components).map fun row => (entity, row) := rfl

theorem exists_map_eq_ok_iff {ε α β : Type} {f : α → β} {result : Except ε α} :
    (∃ b, result.map f = .ok b) ↔ ∃ a, result = .ok a := by
  cases result <;> simp [Except.map]

theorem exists_buildRows_iff {store : Store S} {snapshot : Snapshot} :
    (∃ rows, store.buildRows snapshot = .ok rows) ↔ store.CanRestore snapshot := by
  have hentries : store.CanRestore snapshot ↔ ∀ entry ∈ snapshot.toList,
      ∃ built, (store.rebuildRow entry.2).map (fun row => (entry.1, row)) = .ok built := by
    rw [CanRestore, ← forall_mem_toList_iff (P := fun _ => store.CanRebuildRow)]
    simp only [exists_map_eq_ok_iff, exists_rebuildRow_iff]
  rw [hentries, buildRows_eq]
  simp only [mapM_eq_ok_iff]
  constructor
  · rintro ⟨rows, hrows⟩ entry hentry
    obtain ⟨built, _, hbuilt⟩ := exists_of_mem_forall₂ hrows.flip hentry
    exact ⟨built, hbuilt⟩
  · exact exists_forall₂

/-- A failure to build rows is about the first listed component that cannot be built. -/
theorem restoreFault_of_buildRows {store : Store S} {snapshot : Snapshot} {error : Error}
    (hfailed : store.buildRows snapshot = .error error) : store.RestoreFault snapshot error := by
  rw [buildRows_eq] at hfailed
  obtain ⟨before, entry, after, hsplit, hbefore, hentry⟩ := mapM_eq_error_iff.mp hfailed
  have hrow : store.rebuildRow entry.2 = .error error := by
    cases hrow : store.rebuildRow entry.2 with
    | error cause => simpa [hrow, Except.map] using hentry
    | ok row => simp [hrow, Except.map] at hentry
  obtain ⟨entity, components, hlisted, hentities, hfault⟩ :=
    (exists_first_toList_iff
      (P := fun _ => store.CanRebuildRow)
      (Q := fun _ components => store.rebuildRow components = .error error)).mp
    ⟨before, entry, after, hsplit, fun earlier hearlier =>
      exists_rebuildRow_iff.mp (exists_map_eq_ok_iff.mp (hbefore earlier hearlier)), hrow⟩
  obtain ⟨name, fields, hnamed, hnames, hfault⟩ := exists_fault_of_rebuildRow hfault
  exact .intro hlisted hnamed hentities hnames hfault

/-- A store after rows were placed in it one after another, each for another entity. The next number
is the largest that any of them asks for. -/
structure Placed (before : Store S) (rows : List (EntityId × List (Component S)))
    (after : Store S) : Prop where
  listed : ∀ entry ∈ rows, ∃ row, Row.ofList entry.2 = .ok row ∧ after.rows[entry.1]? = some row
  others : ∀ entity, entity ∉ rows.map Prod.fst → after.rows[entity]? = before.rows[entity]?
  nextId : after.nextId = (rows.map fun entry => following entry.1).foldl max before.nextId

/-- Placing rows for different entities leaves all of them placed, none in the way of another. -/
theorem placed_of_placeAll {store after : Store S} {rows : List (EntityId × List (Component S))}
    (hnodup : (rows.map Prod.fst).Nodup) (hplaced : store.placeAll rows = .ok () after) :
    store.Placed rows after := by
  induction rows generalizing store with
  | nil =>
    cases hplaced
    exact ⟨by simp, fun _ _ => rfl, rfl⟩
  | cons entry rows ih =>
    rw [List.map_cons, List.nodup_cons] at hnodup
    unfold placeAll at hplaced
    split at hplaced
    case h_1 => cases hplaced
    case h_2 middle hplace =>
      obtain ⟨row, hrow, rfl⟩ := place_eq_ok hplace
      obtain ⟨hlisted, hothers, hnext⟩ := ih hnodup.2 hplaced
      refine ⟨fun other hother => ?_, fun other hother => ?_, hnext⟩
      · rcases List.mem_cons.mp hother with rfl | hlater
        · refine ⟨row, hrow, ?_⟩
          rw [hothers other.1 hnodup.1, rows_insertRow, getElem?_rows_insert, if_pos rfl]
        · exact hlisted other hlater
      · rw [List.map_cons, List.mem_cons, not_or] at hother
        have hne : entry.1 ≠ other := Ne.symm hother.1
        rw [hothers other hother.2, rows_insertRow, getElem?_rows_insert, if_neg hne, rows_eraseRow,
          getElem?_rows_erase, if_neg hne]

/-- The components built for one entity come in the order of their names, so they make a row as they
are. -/
theorem ofList_rebuildRow {store : Store S} (hsound : store.Sound) {components : RowSnapshot}
    {built row : List (Component S)}
    (hbuilt : List.Forall₂ (fun named component => store.rebuild named.1 named.2 = .ok component)
      components.toList built)
    (hrow : Row.ofList built = .ok row) : row = built := by
  obtain ⟨hascending, hperm⟩ := Row.ofList_eq_ok hrow
  have hnames : built.map Component.name = components.keys := by
    rw [← Std.ExtTreeMap.map_fst_toList_eq_keys]
    exact map_eq_map_of_forall₂ hbuilt fun _ _ hfirst => hsound.named (rebuild_eq_ok hfirst)
  have hordered : Row.Ascending built := by
    have hkeys : (built.map Component.name).Pairwise fun a b => compare a b = .lt :=
      hnames ▸ Std.ExtTreeMap.ordered_keys
    rw [List.pairwise_map] at hkeys
    refine List.pairwise_map.mpr (hkeys.imp fun hlt => ?_)
    exact Ordering.then_eq_lt.mpr (.inl hlt)
  exact hascending.eq_of_perm hordered hperm

theorem toNat_foldl_max (numbers : List EntityId) (start : EntityId) :
    (numbers.foldl max start).toNat = (numbers.map UInt32.toNat).foldl max start.toNat := by
  induction numbers generalizing start with
  | nil => rfl
  | cons number numbers ih =>
    rw [List.foldl_cons, ih, UInt32.toNat_max, List.map_cons, List.foldl_cons]

/-- A row that was set back to listed components: one component for each of them, in the order of
their names, with the listed fields and otherwise the defaults of its type. -/
def SetBack (store : Store S) (components : RowSnapshot) (row : Row S) : Prop :=
  List.Forall₂ (fun named component => component.name = named.1 ∧
    store.factories[named.1]? = some component.type ∧
    (Component.initial component.type).Overwritten (named.2[·]?) component) components.toList row

/-- Components that were built for an entity are set back to what is listed: each began with the
defaults of its type, and took the listed fields. -/
theorem Sound.setBack_of_rebuildRow {store : Store S} (hsound : store.Sound)
    {components : RowSnapshot} {row : Row S}
    (hbuilt : List.Forall₂ (fun named component => store.rebuild named.1 named.2 = .ok component)
      components.toList row) : store.SetBack components row := by
  refine hbuilt.imp fun named component hcomponent => ?_
  rcases store.rebuild_cases named.1 named.2 with
    ⟨other, hother, _, hknown, hover⟩ | ⟨_, error, hfailed, _⟩
  · obtain rfl := Except.ok.inj (hcomponent.symm.trans hother)
    exact ⟨hsound.named hknown, hknown, hover⟩
  · cases hcomponent.symm.trans hfailed

/-- What a restore that succeeds leaves: the listed entities set back, all others as they were, and
the next number beyond all of them. -/
theorem Sound.placed_of_restore {store after : Store S} (hsound : store.Sound) {snapshot : Snapshot}
    (hrestore : store.restore snapshot = .ok () after) :
    (∀ (entity : EntityId) (components : RowSnapshot), snapshot[entity]? = some components →
      ∃ row, after.rows[entity]? = some row ∧ store.SetBack components row) ∧
    (∀ entity, entity ∉ snapshot → after.rows[entity]? = store.rows[entity]?) ∧
    after.nextId.toNat = (snapshot.keys.map fun entity =>
      min (entity.toNat + 1) (2 ^ 32 - 1)).foldl max store.nextId.toNat := by
  obtain ⟨rows, hbuilt, hplaced⟩ := restore_eq_ok_iff.mp hrestore
  have hkeys := map_fst_of_buildRows hbuilt
  obtain ⟨hlisted, hothers, hnext⟩ :=
    placed_of_placeAll (hkeys ▸ Std.ExtTreeMap.nodup_keys) hplaced
  rw [buildRows_eq_ok_iff] at hbuilt
  refine ⟨fun entity components hentity => ?_, fun entity hentity => hothers entity ?_, ?_⟩
  · rw [← Std.ExtTreeMap.mem_toList_iff_getElem?_eq_some] at hentity
    obtain ⟨⟨placed, built⟩, hmem, rfl, hcomponents⟩ := exists_of_mem_forall₂ hbuilt.flip hentity
    obtain ⟨row, hrow, hafter⟩ := hlisted _ hmem
    obtain rfl := ofList_rebuildRow hsound hcomponents hrow
    exact ⟨row, hafter, hsound.setBack_of_rebuildRow hcomponents⟩
  · rwa [hkeys, Std.ExtTreeMap.mem_keys]
  · rw [hnext, toNat_foldl_max, List.map_map, ← hkeys, List.map_map]
    simp [Function.comp_def, toNat_following]

/-- For every snapshot, a store takes it exactly if it can build every listed component. Then the
listed entities have exactly the listed components, with the listed fields and otherwise defaults,
whatever they had before, all others are as they were, and the next number has moved beyond all that
are listed. Else nothing changes, and the error is about the first listed entry at fault. -/
theorem restore_spec {store : Store S} (hreachable : store.Reachable) (snapshot : Snapshot) :
    ((∃ after, store.restore snapshot = .ok () after) ↔ store.CanRestore snapshot) ∧
    (∀ after, store.restore snapshot = .ok () after →
      (∀ entity, entity ∈ after.rows ↔ entity ∈ store.rows ∨ entity ∈ snapshot) ∧
      (∀ (entity : EntityId) (components : RowSnapshot), snapshot[entity]? = some components →
        ∃ row, after.rows[entity]? = some row ∧ store.SetBack components row) ∧
      (∀ entity, entity ∉ snapshot → after.rows[entity]? = store.rows[entity]?) ∧
      after.nextId.toNat = (snapshot.keys.map fun entity =>
        min (entity.toNat + 1) (2 ^ 32 - 1)).foldl max store.nextId.toNat) ∧
    ∀ error after, store.restore snapshot = .error error after →
      after = store ∧ store.RestoreFault snapshot error := by
  have hsound := hreachable.sound
  refine ⟨?_, fun after hrestore => ?_, fun error after hrestore => ?_⟩
  · rw [← exists_buildRows_iff]
    constructor
    · rintro ⟨after, hrestore⟩
      obtain ⟨rows, hbuilt, _⟩ := restore_eq_ok_iff.mp hrestore
      exact ⟨rows, hbuilt⟩
    · rintro ⟨rows, hbuilt⟩
      obtain ⟨after, hplaced⟩ := hsound.exists_placeAll_eq_ok hbuilt
      exact ⟨after, restore_eq_ok_iff.mpr ⟨rows, hbuilt, hplaced⟩⟩
  · obtain ⟨hlisted, hothers, hnext⟩ := hsound.placed_of_restore hrestore
    refine ⟨fun entity => ?_, hlisted, hothers, hnext⟩
    by_cases hentity : entity ∈ snapshot
    · obtain ⟨components, hcomponents⟩ := mem_iff_exists_getElem?.mp hentity
      obtain ⟨row, hrow, _⟩ := hlisted entity components hcomponents
      exact iff_of_true (mem_iff_exists_getElem?.mpr ⟨row, hrow⟩) (.inr hentity)
    · simp only [mem_iff_exists_getElem?, hothers entity hentity]
      simp [← mem_iff_exists_getElem?, hentity]
  · refine ⟨hsound.restore_error hrestore, ?_⟩
    cases hbuilt : store.buildRows snapshot with
    | error cause =>
      rw [restore, hbuilt] at hrestore
      cases hrestore
      exact restoreFault_of_buildRows hbuilt
    | ok rows =>
      obtain ⟨placed, hplaced⟩ := hsound.exists_placeAll_eq_ok hbuilt
      cases hrestore.symm.trans (restore_eq_ok_iff.mpr ⟨rows, hbuilt, hplaced⟩)

/-- A store with one entity takes part of its fields and an entity that it does not have, and it
takes no field of another kind. -/
theorem restore_spec_health :
    let store : Store Zoo.schema :=
      Call.runAll [.create [.initial { name := "zoo::Health" }]] (.empty 7)
    let snapshot (value : Value) : Snapshot :=
      (Std.ExtTreeMap.empty.insert 7 ∅).insert 0
        (Std.ExtTreeMap.empty.insert "zoo::Health" (Std.ExtTreeMap.empty.insert "current" value))
    store.Reachable ∧
    (∃ after, store.restore (snapshot (.uint 3)) = .ok () after ∧ 7 ∈ after.rows ∧
      after.nextId.toNat = 8) ∧
    store.RestoreFault (snapshot (.bool true))
      (.field (.invalid "zoo::Health" "current" (.typeMismatch "u32" "bool"))) := by
  intro store snapshot
  have hreachable : store.Reachable := ⟨7, [.create [.initial { name := "zoo::Health" }]], rfl⟩
  obtain ⟨_, hok, _⟩ := restore_spec hreachable (snapshot (.uint 3))
  obtain ⟨_, _, herror⟩ := restore_spec hreachable (snapshot (.bool true))
  obtain ⟨hlive, _, _, hnext⟩ := hok _ rfl
  refine ⟨hreachable, ⟨_, rfl, (hlive 7).mpr (.inr ?_), hnext⟩, (herror _ _ rfl).2⟩
  decide

end EntityWorld.Store
