import EntityWorld.Proofs.Store.Deeds
import EntityWorld.Proofs.Store.Names
import EntityWorld.Proofs.Store.Placement

namespace EntityWorld.Store

variable {S : Schema}

/-- Moving entities to the end one after another leaves them there in this order, behind all that
were not moved. -/
theorem foldl_toEnd {moved order : List EntityId} (horder : order.Nodup) (hmoved : moved.Nodup) :
    moved.foldl Call.toEnd order = order.filter (· ∉ moved) ++ moved := by
  induction moved generalizing order with
  | nil => simp
  | cons entity moved ih =>
    obtain ⟨hfresh, hrest⟩ := List.nodup_cons.mp hmoved
    have hnodup : (Call.toEnd order entity).Nodup := by
      refine List.nodup_append.mpr ⟨horder.erase entity, List.nodup_singleton entity, ?_⟩
      rintro found hfound other hother rfl
      rw [List.mem_singleton.mp hother] at hfound
      exact horder.not_mem_erase hfound
    rw [List.foldl_cons, ih hnodup hrest, Call.toEnd, horder.erase_eq_filter, List.filter_append,
      List.filter_filter, List.append_assoc]
    congr 1
    · refine List.filter_congr fun other _ => ?_
      by_cases heq : other = entity <;> simp [heq]
    · simp [hfresh]

theorem pairwise_listing (store : Store S) {order : List EntityId}
    (horder : order.Pairwise (· ≤ ·)) (key : Key) :
    (store.listing order key).Pairwise (· ≤ ·) := by
  induction order with
  | nil => exact .nil
  | cons entity order ih =>
    obtain ⟨hfirst, hrest⟩ := List.pairwise_cons.mp horder
    rw [listing, List.flatMap_cons]
    refine List.pairwise_append.mpr ⟨?_, ih hrest, fun a ha b hb => ?_⟩
    · exact List.pairwise_replicate.mpr (.inr (UInt32.le_refl entity))
    · obtain ⟨other, hother, hfound⟩ := List.mem_flatMap.mp hb
      rw [(List.mem_replicate.mp ha).2, (List.mem_replicate.mp hfound).2]
      exact hfirst other hother

/-- What is kept of the same entities in another order has the same entries. -/
theorem kept_perm {entities others : List EntityId} (hperm : entities.Perm others) :
    Option.Rel Array.Perm (kept entities) (kept others) := by
  unfold kept
  by_cases hnil : entities = []
  · rw [if_pos hnil, if_pos (List.nil_perm.mp (hnil ▸ hperm))]
    exact .none
  · rw [if_neg hnil, if_neg fun hother : others = [] => hnil (List.perm_nil.mp (hother ▸ hperm))]
    exact .some (Array.perm_iff_toList_perm.mpr hperm)

theorem getElem?_snapshot (store : Store S) (entity : EntityId) :
    store.snapshot[entity]? = store.rows[entity]?.map Row.snapshot := by
  rw [snapshot, Std.ExtTreeMap.getElem?_map]

theorem keys_snapshot (store : Store S) : store.snapshot.keys = store.entities := by
  rw [snapshot, Std.ExtTreeMap.keys_map, entities]

theorem mem_entities_iff {store : Store S} {entity : EntityId} :
    entity ∈ store.entities ↔ ∃ row, (entity, row) ∈ store.rows.toList := by
  simp only [Std.ExtTreeMap.mem_toList_iff_getElem?_eq_some]
  exact mem_entities.trans mem_iff_exists_getElem?

theorem row_eq_none_of_not_mem {store : Store S} {entity : EntityId}
    (hnot : entity ∉ store.entities) : store.rows[entity]? = none :=
  Std.ExtTreeMap.getElem?_eq_none (mt mem_entities.mpr hnot)

/-- A store after it was set back to what was taken down of it. Every field of every component reads
as before. Only the order of its lists may have changed, and not even that if they were in order. -/
structure Restored (before after : Store S) : Prop where
  snapshot : after.snapshot = before.snapshot
  fields : ∀ (entity : EntityId) (type : TypeId) (field : String),
    after.read entity type field = before.read entity type field
  entities : after.entities = before.entities
  types : ∀ entity, after.typesOf entity = before.typesOf entity
  factories : after.factories = before.factories
  seed : after.seed = before.seed
  nextId : after.nextId = before.nextId
  buckets_perm : ∀ key, Option.Rel Array.Perm (after.bucket? key) (before.bucket? key)
  buckets_eq : (∀ key bucket, before.bucket? key = some bucket →
    bucket.toList.Pairwise (· ≤ ·)) → after.buckets = before.buckets

/-- Filling a store from another one leaves those alone who do not live there. -/
theorem Refilled.row_eq_of_not_mem {before store after : Store S}
    (hafter : before.Refilled store.rows.toList after) {entity : EntityId}
    (hnot : entity ∉ store.entities) : after.rows[entity]? = before.rows[entity]? := by
  refine hafter.others entity ?_
  rw [Std.ExtTreeMap.map_fst_toList_eq_keys]
  exact hnot

/-- What is taken down of a store without other entities that was filled from another store. -/
theorem Refilled.snapshot_eq {before store after : Store S}
    (hafter : before.Refilled store.rows.toList after)
    (hothers : ∀ entity, entity ∉ store.entities → before.rows[entity]? = none) :
    after.snapshot = store.snapshot := by
  refine Std.ExtTreeMap.ext_getElem? fun entity => ?_
  rw [getElem?_snapshot, getElem?_snapshot]
  by_cases hmem : entity ∈ store.entities
  · obtain ⟨row, hentry⟩ := mem_entities_iff.mp hmem
    obtain ⟨rebuilt, hrebuilt, _, hsame⟩ := hafter.listed (entity, row) hentry
    rw [hrebuilt, Std.ExtTreeMap.mem_toList_iff_getElem?_eq_some.mp hentry, Option.map_some,
      Option.map_some, hsame]
  · rw [hafter.row_eq_of_not_mem hmem, hothers entity hmem, row_eq_none_of_not_mem hmem]

/-- Of a store without other entities that was filled from another store every field reads as it
does there. What is taken down does not tell two types of one name apart, so each type has to be the
one that is rebuilt by its name. -/
theorem Refilled.read_eq {before store after : Store S} (hsound : store.Sound)
    (hregisters : before.Registers store) (hafter : before.Refilled store.rows.toList after)
    (hothers : ∀ entity, entity ∉ store.entities → before.rows[entity]? = none)
    (entity : EntityId) (type : TypeId) (field : String) :
    after.read entity type field = store.read entity type field := by
  by_cases hmem : entity ∈ store.entities
  · obtain ⟨row, hentry⟩ := mem_entities_iff.mp hmem
    obtain ⟨rebuilt, hrebuilt, htypes, hsame⟩ := hafter.listed (entity, row) hentry
    have hrow := Std.ExtTreeMap.mem_toList_iff_getElem?_eq_some.mp hentry
    have hfields := Row.map_get?_find?_of_snapshot_eq (hsound.nodup_names hregisters hrow) htypes
      hsame type field
    exact read_eq_of_rows hrow hrebuilt hfields
  · have hrows : after.rows[entity]? = store.rows[entity]? := by
      rw [hafter.row_eq_of_not_mem hmem, hothers entity hmem, row_eq_none_of_not_mem hmem]
    rw [read, read, get_eq_answer, get_eq_answer, cell_congr hrows]

theorem Refilled.typesOf_eq {store after : Store S}
    (hafter : store.Refilled store.rows.toList after) (entity : EntityId) :
    after.typesOf entity = store.typesOf entity := by
  by_cases hmem : entity ∈ store.entities
  · obtain ⟨row, hentry⟩ := mem_entities_iff.mp hmem
    obtain ⟨rebuilt, hrebuilt, hsame, _⟩ := hafter.listed (entity, row) hentry
    have hrow := Std.ExtTreeMap.mem_toList_iff_getElem?_eq_some.mp hentry
    rw [typesOf_eq_some hrebuilt, typesOf_eq_some hrow, hsame]
  · rw [typesOf, typesOf, hafter.row_eq_of_not_mem hmem]

/-- The next number is beyond all that are placed again, so it does not move. In a fresh store it
moves to just behind the largest of them. -/
theorem Refilled.nextId_eq_self {store after : Store S} (hsound : store.Sound)
    (hafter : store.Refilled store.rows.toList after) : after.nextId = store.nextId := by
  refine UInt32.le_antisymm (hafter.nextId_le _ (UInt32.le_refl _) fun entry hentry => ?_)
    hafter.le_nextId.1
  exact hsound.numbered (Std.ExtTreeMap.mem_toList_iff_getElem?_eq_some.mp hentry)

/-- Setting a store back to what was taken down of it places all entities again in ascending order,
so that is their order then. -/
theorem Indexed.restore_self {store after : Store S} {order : List EntityId} (hsound : store.Sound)
    (hindexed : store.Indexed order) (hrestore : store.restore store.snapshot = .ok () after) :
    after.Indexed store.entities := by
  have hall : order.filter (· ∉ store.entities) = [] := by
    refine List.filter_eq_nil_iff.mpr fun entity hentity => ?_
    rw [hindexed.mem_iff, ← mem_entities] at hentity
    simpa using hentity
  have hrestored := hindexed.restore hsound hrestore
  rwa [keys_snapshot, foldl_toEnd hindexed.nodup store.nodup_entities, hall, List.nil_append]
    at hrestored

/-- A store that was set back to what was taken down of it reads as before in every respect but the
order of its lists. -/
theorem Refilled.restored {store after : Store S} {order : List EntityId} (hsound : store.Sound)
    (hregisters : store.Registers store) (hindexed : store.Indexed order)
    (hrestore : store.restore store.snapshot = .ok () after)
    (hafter : store.Refilled store.rows.toList after) : store.Restored after := by
  have hothers (entity : EntityId) (hnot : entity ∉ store.entities) : store.rows[entity]? = none :=
    row_eq_none_of_not_mem hnot
  have hsnapshot : after.snapshot = store.snapshot := hafter.snapshot_eq hothers
  have hkeys := hindexed.restore_self hsound hrestore
  have hlisting (key : Key) : after.listing store.entities key =
      store.listing store.entities key :=
    listing_congr key fun entity _ => multiplicity_congr hafter.seed (hafter.typesOf_eq entity) key
  have hperm (key : Key) :
      (store.listing store.entities key).Perm (store.listing order key) :=
    hindexed.entities_perm.flatMap_right _
  have hentities : after.entities = store.entities := by
    rw [← keys_snapshot, ← keys_snapshot, hsnapshot]
  refine
    { snapshot := hsnapshot
      fields := hafter.read_eq hsound hregisters hothers
      entities := hentities
      types := hafter.typesOf_eq
      factories := hafter.factories
      seed := hafter.seed
      nextId := hafter.nextId_eq_self hsound
      buckets_perm := fun key => ?_
      buckets_eq := fun hsorted => ?_ }
  · rw [bucket?, bucket?, hkeys.buckets, hindexed.buckets, hlisting]
    exact kept_perm (hperm key)
  · refine Std.ExtTreeMap.ext_getElem? fun key => ?_
    have hbefore : (store.listing order key).Pairwise (· ≤ ·) := by
      by_cases hnil : store.listing order key = []
      · rw [hnil]
        exact .nil
      · exact hsorted key _ ((hindexed.buckets key).trans (if_neg hnil))
    rw [hkeys.buckets, hindexed.buckets, hlisting]
    exact congrArg kept ((hperm key).eq_of_pairwise (fun _ _ _ _ => UInt32.le_antisymm)
      (store.pairwise_listing store.pairwise_entities key) hbefore)

/-- The number that a store hands out after it was filled with no other entities in it: zero if
nobody was set back, and else the one behind the largest. -/
theorem Refilled.nextId_eq {before store after : Store S}
    (hafter : before.Refilled store.rows.toList after) (hzero : before.nextId = 0) :
    (store.entities = [] → after.nextId = 0) ∧
      ∀ largest ∈ store.entities, (∀ entity ∈ store.entities, entity ≤ largest) →
        after.nextId = following largest := by
  have hfollowing {entity bound : EntityId} (hle : entity ≤ bound) :
      following entity ≤ following bound := by
    rw [UInt32.le_iff_toNat_le] at hle ⊢
    rw [toNat_following, toNat_following]
    omega
  have hentry {entry : EntityId × Row S} (hmem : entry ∈ store.rows.toList) :
      entry.1 ∈ store.entities := mem_entities_iff.mpr ⟨entry.2, hmem⟩
  constructor
  · intro hempty
    refine UInt32.le_antisymm (hafter.nextId_le 0 (hzero ▸ UInt32.le_refl _) fun entry hmem => ?_)
      (UInt32.zero_le)
    exact absurd (hentry hmem) (hempty ▸ List.not_mem_nil)
  · intro largest hlargest hmax
    obtain ⟨row, hmem⟩ := mem_entities_iff.mp hlargest
    refine UInt32.le_antisymm (hafter.nextId_le _ ?_ fun entry hmem => ?_)
      (hafter.le_nextId.2 (largest, row) hmem)
    · rw [hzero]
      exact UInt32.zero_le
    · exact hfollowing (hmax entry.1 (hentry hmem))

/-- Unless all numbers are used up, components of distinct types make an entity, under the next
number. -/
theorem exists_create {store : Store S} (hroom : store.nextId ≠ lastEntity)
    {components : List (Component S)} (hnodup : (components.map Component.type).Nodup) :
    ∃ after, store.create components = .ok store.nextId after := by
  obtain ⟨row, hrow⟩ := Row.exists_ofList_eq_ok hnodup
  exact ⟨_, by rw [create, if_neg hroom, hrow]⟩

/-- The number handed out behind a largest one, if there is one behind it. -/
theorem create_following {store : Store S} {largest : EntityId}
    (hnext : store.nextId = following largest) (components : List (Component S)) :
    (largest.toNat < 2 ^ 32 - 2 → (components.map Component.type).Nodup →
      ∃ next, store.create components = .ok (largest + 1) next) ∧
    (2 ^ 32 - 2 ≤ largest.toNat → store.create components = .error .idsExhausted store) := by
  have hlast := toNat_lastEntity
  constructor
  · intro hroom hnodup
    have hne : largest ≠ lastEntity := fun heq => by
      rw [heq, hlast] at hroom
      omega
    have hstep : store.nextId = largest + 1 := by rw [hnext, following, if_neg hne]
    rw [← hstep]
    refine exists_create (fun hend => ?_) hnodup
    have hnat := congrArg UInt32.toNat (hnext.symm.trans hend)
    rw [toNat_following, hlast] at hnat
    omega
  · intro hfull
    have hend : store.nextId = lastEntity := by
      refine UInt32.toNat_inj.mp ?_
      rw [hnext, toNat_following, hlast]
      omega
    rw [create, if_pos hend]

/-- Whether a store rebuilds what lives in another one can be seen entry by entry, and so be decided
for given stores. -/
theorem registers_of_toList {registry store : Store S}
    (hknown : ∀ entry ∈ store.rows.toList, ∀ type ∈ entry.2.types,
      registry.factories[type.name]? = some type) : registry.Registers store :=
  fun entity row hrow =>
    hknown (entity, row) (Std.ExtTreeMap.mem_toList_iff_getElem?_eq_some.mpr hrow)

/-- What is taken down of a store has the live entities, and under the name of each type that one of
them has it tells what every field of the component reads. -/
theorem Sound.snapshot_tells {store : Store S} (hsound : store.Sound)
    (hregisters : store.Registers store) :
    store.snapshot.keys = store.entities ∧
    ∀ (entity : EntityId) (type : TypeId) (record : Record (S.fields type)),
      store.get entity type = .ok record → ∃ components fields,
        store.snapshot[entity]? = some components ∧ components[type.name]? = some fields ∧
        ∀ field, fields[field]? = record.get? _ field := by
  refine ⟨store.keys_snapshot, fun entity type record hget => ?_⟩
  obtain ⟨row, hrow, hfound⟩ := get_eq_ok_iff.mp hget
  have hlisted := Row.getElem?_snapshot_of_find? (hsound.nodup_names hregisters hrow) hfound
  refine ⟨row.snapshot, _, ?_, hlisted, Component.getElem?_snapshot ⟨type, record⟩⟩
  rw [getElem?_snapshot, hrow, Option.map_some]

/-- Taking a store down and setting it back is a round trip if the store rebuilds each of its
components by its own type, which it does after all calls that bring in no two types of one name:
what is taken down tells every field of every component, and each of them reads the same afterwards.
So it does in a fresh store that rebuilds the components by their types too, and the next number
that this one hands out is the one behind the largest. -/
theorem restore_snapshot :
    (∀ (seed : UInt32) (calls : List (Call S)),
      (∀ a ∈ calls.flatMap Call.brings, ∀ b ∈ calls.flatMap Call.brings, a.name = b.name → a = b) →
        (Call.runAll calls (.empty seed)).Registers (Call.runAll calls (.empty seed))) ∧
    ∀ store : Store S, store.Reachable → store.Registers store →
      (store.snapshot.keys = store.entities ∧
        ∀ (entity : EntityId) (type : TypeId) (record : Record (S.fields type)),
          store.get entity type = .ok record → ∃ components fields,
            store.snapshot[entity]? = some components ∧ components[type.name]? = some fields ∧
            ∀ field, fields[field]? = record.get? _ field) ∧
      (∃ after, store.restore store.snapshot = .ok () after ∧ store.Restored after) ∧
      ∀ fresh : Store S, fresh.rows = ∅ → fresh.nextId = 0 → fresh.Registers store →
        ∃ after, fresh.restore store.snapshot = .ok () after ∧ after.snapshot = store.snapshot ∧
          (∀ (entity : EntityId) (type : TypeId) (field : String),
            after.read entity type field = store.read entity type field) ∧
          ∀ components : List (Component S),
            (store.entities = [] → (components.map Component.type).Nodup →
              ∃ next, after.create components = .ok 0 next) ∧
            ∀ largest ∈ store.entities, (∀ entity ∈ store.entities, entity ≤ largest) →
              (largest.toNat < 2 ^ 32 - 2 → (components.map Component.type).Nodup →
                ∃ next, after.create components = .ok (largest + 1) next) ∧
              (2 ^ 32 - 2 ≤ largest.toNat →
                after.create components = .error .idsExhausted after) := by
  refine ⟨fun seed calls hnames => ?_, fun store hreachable hregisters =>
    ⟨hreachable.sound.snapshot_tells hregisters, ?_, ?_⟩⟩
  · have hwithin := Within.runAll (.empty seed) (.empty seed) calls fun _ htype => htype
    exact hwithin.registers ((Sound.empty seed).runAll calls) fun a b ha => hnames a ha b
  · obtain ⟨order, hindexed⟩ := hreachable.exists_indexed
    obtain ⟨after, hrestore, hafter⟩ := exists_restore hreachable.sound hregisters
    exact ⟨after, hrestore, hafter.restored hreachable.sound hregisters hindexed hrestore⟩
  · intro fresh hrows hzero hknown
    have hothers (entity : EntityId) (_ : entity ∉ store.entities) : fresh.rows[entity]? = none := by
      simp [hrows]
    obtain ⟨after, hrestore, hafter⟩ := exists_restore hreachable.sound hknown
    obtain ⟨hempty, hnext⟩ := hafter.nextId_eq hzero
    refine ⟨after, hrestore, hafter.snapshot_eq hothers,
      hafter.read_eq hreachable.sound hknown hothers,
      fun components => ⟨fun hnone hnodup => ?_, fun largest hlargest hmax => ?_⟩⟩
    · rw [← hempty hnone]
      exact exists_create (by rw [hempty hnone]; decide) hnodup
    · exact create_following (hnext largest hlargest hmax) components

/-- Three entities of five types. The first one is placed again behind the others, and fields of
several kinds are set to other values than their defaults. -/
def Call.crowd : List (Call Zoo.schema) :=
  [ .create [.initial { name := "zoo::Health" }],
    .create [.initial { name := "zoo::Opt" }, .initial { name := "zoo::Health" }],
    .create [.initial { name := "zoo::Health" }, .initial { name := "zoo::Name" }],
    .place [.initial { name := "zoo::Log" }, .initial { name := "zoo::Health" }] 0,
    .setField 0 { name := "zoo::Health" } "current" (.uint 3),
    .setField 0 { name := "zoo::Log" } "0" (.list [.string "hit", .string "healed"]),
    .setField 1 { name := "zoo::Opt" } "maybe" .null,
    .setField 1 { name := "zoo::Opt" } "grid" (.list [.list [.int (-4), .int 5], .list []]),
    .setField 1 { name := "zoo::Opt" } "any" (.list [.bool true, .char 'x']),
    .setField 2 { name := "zoo::Name" } "0" (.string "größe") ]

/-- A crowd is set back in its own store and in a fresh one with another seed that knows its types,
in which it is listed otherwise. Each time the fields read what they were set to, and the entity
that was placed again is listed first. -/
theorem restore_snapshot_crowd :
    let store := Call.runAll Call.crowd (.empty 7)
    let fresh : Store Zoo.schema := Call.runAll
      [ .register { name := "zoo::Name" }, .register { name := "zoo::Health" },
        .register { name := "zoo::Log" }, .register { name := "zoo::Opt" } ] (.empty 3)
    let shows (after : Store Zoo.schema) : Prop :=
      after.read 0 { name := "zoo::Health" } "current" = .ok (some (.uint 3)) ∧
      after.read 0 { name := "zoo::Health" } "max" = .ok (some (.uint 10)) ∧
      after.read 0 { name := "zoo::Log" } "0" =
        .ok (some (.list [.string "hit", .string "healed"])) ∧
      after.read 1 { name := "zoo::Opt" } "maybe" = .ok (some .null) ∧
      after.read 1 { name := "zoo::Opt" } "grid" =
        .ok (some (.list [.list [.int (-4), .int 5], .list []])) ∧
      after.read 1 { name := "zoo::Opt" } "any" = .ok (some (.list [.bool true, .char 'x'])) ∧
      after.read 2 { name := "zoo::Name" } "0" = .ok (some (.string "größe")) ∧
      after.read 2 { name := "zoo::Log" } "0" = .error (.missingComponent 2 "zoo::Log")
    store.bucket? (store.keyOf ["zoo::Health"]) = some #[1, 2, 0] ∧
    (∃ after, store.restore store.snapshot = .ok () after ∧ store.Restored after ∧ shows after ∧
      after.bucket? (after.keyOf ["zoo::Health"]) = some #[0, 1, 2]) ∧
    ∃ after, fresh.restore store.snapshot = .ok () after ∧ after.snapshot = store.snapshot ∧
      shows after ∧ ∃ next, after.create [Zoo.plain] = .ok 3 next := by
  intro store fresh shows
  obtain ⟨hruns, hstores⟩ := @restore_snapshot Zoo.schema
  have hregisters : store.Registers store := hruns 7 Call.crowd (by decide)
  obtain ⟨_, ⟨after, hrestore, hrestored⟩, hfresh⟩ := hstores store ⟨7, Call.crowd, rfl⟩ hregisters
  have hshows (other : Store Zoo.schema) (hsame : ∀ entity type field,
      other.read entity type field = store.read entity type field) : shows other := by
    simp only [shows, hsame]
    exact ⟨rfl, rfl, rfl, rfl, rfl, rfl, rfl, rfl⟩
  have hlisted : (stateOf (store.restore store.snapshot)).bucket?
      ((stateOf (store.restore store.snapshot)).keyOf ["zoo::Health"]) = some #[0, 1, 2] := by
    decide +kernel
  rw [hrestore, stateOf_ok] at hlisted
  have hknown : fresh.Registers store := registers_of_toList (by decide +kernel)
  obtain ⟨filled, hfilled, hsnapshot, hfields, hnext⟩ := hfresh fresh rfl rfl hknown
  obtain ⟨_, hlargest⟩ := hnext [Zoo.plain]
  have hentities : store.entities = [0, 1, 2] := by decide +kernel
  obtain ⟨hroom, _⟩ := hlargest 2 (by simp [hentities]) (by simp [hentities])
  exact ⟨by decide +kernel, ⟨after, hrestore, hrestored, hshows after hrestored.fields, hlisted⟩,
    filled, hfilled, hsnapshot, hshows filled hfields,
    hroom (by decide) (List.nodup_singleton _)⟩

end EntityWorld.Store
