import EntityWorld.Proofs.Component
import EntityWorld.Proofs.Store.Sound

namespace EntityWorld

variable {S : Schema}

namespace Store

/-- A component is built as one of the type that the store knows under the name. -/
theorem rebuild_eq_ok {store : Store S} {name : String} {fields : ComponentSnapshot}
    {component : Component S} (hbuilt : store.rebuild name fields = .ok component) :
    store.factories[name]? = some component.type := by
  unfold rebuild build? at hbuilt
  cases hfound : store.factories[name]? with
  | none => simp [hfound] at hbuilt
  | some type =>
    simp only [hfound, Option.map_some] at hbuilt
    cases hset : (Component.initial type : Component S).setAll fields.toList with
    | error cause => simp [hset, Except.mapError] at hbuilt
    | ok changed =>
      rw [hset] at hbuilt
      obtain rfl := Except.ok.inj hbuilt
      rw [Component.type_setAll hset]
      rfl

/-- Building the rows of a snapshot means building each component of each of them, in the order of
the entities and for each of these in the order of the names. -/
theorem buildRows_eq_ok_iff {store : Store S} {snapshot : Snapshot}
    {rows : List (EntityId × List (Component S))} :
    store.buildRows snapshot = .ok rows ↔
      List.Forall₂ (fun entry built => built.1 = entry.1 ∧
        List.Forall₂ (fun named component => store.rebuild named.1 named.2 = .ok component)
          entry.2.toList built.2) snapshot.toList rows := by
  unfold buildRows
  rw [mapM_eq_ok_iff]
  refine iff_of_eq (congrArg (List.Forall₂ · _ _) ?_)
  funext ⟨entity, components⟩ ⟨builtEntity, built⟩
  rw [← mapM_eq_ok_iff]
  cases hrow : components.toList.mapM fun named => store.rebuild named.1 named.2 with
  | error error => simp [hrow, bind, Except.bind]
  | ok row => simp [hrow, bind, Except.bind, pure, Except.pure, eq_comm]

theorem map_fst_of_buildRows {store : Store S} {snapshot : Snapshot}
    {rows : List (EntityId × List (Component S))} (hbuilt : store.buildRows snapshot = .ok rows) :
    rows.map Prod.fst = snapshot.keys := by
  rw [buildRows_eq_ok_iff] at hbuilt
  rw [← Std.ExtTreeMap.map_fst_toList_eq_keys]
  exact map_eq_map_of_forall₂ hbuilt fun _ _ hentry => hentry.1

/-- The components built for one entity are of distinct types, since their names are distinct and
each is built by a type of its name. -/
theorem nodup_types_of_rebuild {store : Store S} (hsound : store.Sound) {snapshot : RowSnapshot}
    {components : List (Component S)}
    (hbuilt : List.Forall₂ (fun named component => store.rebuild named.1 named.2 = .ok component)
      snapshot.toList components) : (components.map Component.type).Nodup := by
  have hnames : components.map Component.name = snapshot.keys := by
    rw [← Std.ExtTreeMap.map_fst_toList_eq_keys]
    exact map_eq_map_of_forall₂ hbuilt fun _ _ hfirst => hsound.named (rebuild_eq_ok hfirst)
  exact Row.nodup_types_of_names (hnames ▸ Std.ExtTreeMap.nodup_keys)

/-- Entities whose components are of distinct types can all be placed, whatever store they are
placed in. A duplicate is all that placing can fail for. -/
theorem exists_placeAll_eq_ok (store : Store S) {rows : List (EntityId × List (Component S))}
    (hnodup : ∀ entry ∈ rows, (entry.2.map Component.type).Nodup) :
    ∃ after, store.placeAll rows = .ok () after := by
  induction rows generalizing store with
  | nil => exact ⟨store, rfl⟩
  | cons entry rows ih =>
    obtain ⟨row, hrow⟩ := Row.exists_ofList_eq_ok (hnodup entry List.mem_cons_self)
    have hplace : ∃ next, store.place entry.2 entry.1 = .ok () next := by
      unfold place
      rw [hrow]
      exact ⟨_, rfl⟩
    obtain ⟨next, hplace⟩ := hplace
    obtain ⟨after, hafter⟩ := ih next fun other hother => hnodup other (List.mem_cons_of_mem _ hother)
    refine ⟨after, ?_⟩
    rw [placeAll, hplace]
    exact hafter

/-- Once the rows of a snapshot could be built, they can all be placed. This is why setting back is
all or nothing. -/
theorem Sound.exists_placeAll_eq_ok {store : Store S} (hsound : store.Sound) {snapshot : Snapshot}
    {rows : List (EntityId × List (Component S))} (hbuilt : store.buildRows snapshot = .ok rows) :
    ∃ after, store.placeAll rows = .ok () after := by
  refine store.exists_placeAll_eq_ok fun entry hentry => ?_
  rw [buildRows_eq_ok_iff] at hbuilt
  obtain ⟨_, _, _, hcomponents⟩ := exists_of_mem_forall₂ hbuilt hentry
  exact nodup_types_of_rebuild hsound hcomponents

theorem restore_eq_ok_iff {store after : Store S} {snapshot : Snapshot} :
    store.restore snapshot = .ok () after ↔
      ∃ rows, store.buildRows snapshot = .ok rows ∧ store.placeAll rows = .ok () after := by
  unfold restore
  cases hbuilt : store.buildRows snapshot <;> simp

/-- A snapshot that cannot be set back changes nothing, since it fails while rows are being
built. -/
theorem Sound.restore_error {store after : Store S} (hsound : store.Sound) {snapshot : Snapshot}
    {error : Error} (hrestore : store.restore snapshot = .error error after) : after = store := by
  unfold Store.restore at hrestore
  cases hbuilt : store.buildRows snapshot with
  | error cause =>
    rw [hbuilt] at hrestore
    cases hrestore
    rfl
  | ok rows =>
    obtain ⟨placed, hplaced⟩ := hsound.exists_placeAll_eq_ok hbuilt
    rw [hbuilt] at hrestore
    simp only [hplaced] at hrestore
    cases hrestore

end Store

end EntityWorld
