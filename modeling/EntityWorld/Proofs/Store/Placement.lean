import EntityWorld.Proofs.Store.Listing
import EntityWorld.Proofs.Store.Reachable

namespace EntityWorld.Store

variable {S : Schema}

/-- Elementary changes keep the lists exact. The induction is over the changes, and the order of
placement moves along. -/
theorem Changes.indexed {P : TypeId → Prop} {store after : Store S} {order placed : List EntityId}
    (hchanges : Changes P store order after placed) (hindexed : store.Indexed order) :
    after.Indexed placed := by
  induction hchanges with
  | refl => exact hindexed
  | @insert _ _ _ next row _ hfresh _ _ _ _ ih => exact ih.insertRow hfresh row next
  | erase _ entity ih => exact ih.eraseRow entity
  | write _ hsame ih => exact ih.of_sameLayout hsame
  | register _ _ _ ih => exact ih.congr rfl (fun _ => rfl) rfl

theorem nodup_entities (store : Store S) : store.entities.Nodup :=
  Std.ExtTreeMap.nodup_keys

theorem mem_entities {store : Store S} {entity : EntityId} :
    entity ∈ store.entities ↔ entity ∈ store.rows :=
  Std.ExtTreeMap.mem_keys

theorem pairwise_entities (store : Store S) : store.entities.Pairwise (· ≤ ·) :=
  Std.ExtTreeMap.ordered_keys.imp fun hlt => UInt32.le_of_lt (Std.compare_eq_lt.mp hlt)

/-- An order of placement holds the live entities, in an order of its own. -/
theorem Indexed.entities_perm {store : Store S} {order : List EntityId}
    (hindexed : store.Indexed order) : store.entities.Perm order := by
  refine (List.perm_ext_iff_of_nodup store.nodup_entities hindexed.nodup).mpr fun entity => ?_
  rw [mem_entities, hindexed.mem_iff]

/-- Sorting an order of placement gives the live entities in ascending order. -/
theorem Indexed.entities_eq_sortBy {store : Store S} {order : List EntityId}
    (hindexed : store.Indexed order) :
    store.entities = sortBy (fun a b => decide (a ≤ b)) order := by
  have hperm : store.entities.Perm (sortBy (fun a b => decide (a ≤ b)) order) :=
    hindexed.entities_perm.trans (sortBy_perm order).symm
  have hsorted : (sortBy (fun a b => decide (a ≤ b)) order).Pairwise (· ≤ ·) := by
    refine List.Pairwise.imp of_decide_eq_true (pairwise_sortBy ?_ ?_ order)
    · intro a b c hab hbc
      exact decide_eq_true (UInt32.le_trans (of_decide_eq_true hab) (of_decide_eq_true hbc))
    · intro a b
      simpa using UInt32.le_total a b
  exact hperm.eq_of_pairwise (fun _ _ _ _ => UInt32.le_antisymm) store.pairwise_entities hsorted

/-- Listing rows one after another adds the entries of each behind those before it. -/
theorem getElem?_buckets_foldl_enlist {store : Store S} {key : Key} {entities : List EntityId}
    (hkept : store.buckets[key]? = kept entities) (rows : List (EntityId × Row S)) :
    (rows.foldl (fun store entry => store.enlist entry.1 entry.2) store).buckets[key]? =
      kept (entities ++ rows.flatMap fun entry =>
        List.replicate (entry.2.multiplicity store.seed key) entry.1) := by
  induction rows generalizing store entities with
  | nil => simpa using hkept
  | cons entry rows ih =>
    rw [List.foldl_cons, ih (getElem?_buckets_enlist hkept entry.1 entry.2), List.flatMap_cons,
      List.append_assoc]
    rfl

/-- The rows in ascending order make up the listing of the entities in that order, each with the
entries that its row makes. -/
theorem flatMap_toList_rows (store : Store S) (key : Key) :
    (store.rows.toList.flatMap fun entry =>
      List.replicate (entry.2.multiplicity store.seed key) entry.1) =
      store.listing store.entities key := by
  rw [listing, entities, ← Std.ExtTreeMap.map_fst_toList_eq_keys, List.flatMap_map]
  refine List.flatMap_congr fun entry hentry => ?_
  obtain ⟨entity, row⟩ := entry
  rw [multiplicity_of_some key (Std.ExtTreeMap.mem_toList_iff_getElem?_eq_some.mp hentry)]

/-- A change of the seed lists all entities afresh, in ascending order. A change to the same seed
does nothing, and so leaves the order as it was. -/
theorem Indexed.reseed {store : Store S} {order : List EntityId} (hindexed : store.Indexed order)
    (seed : UInt32) :
    (store.reseed seed).Indexed
      (if seed = store.seed then order else sortBy (fun a b => decide (a ≤ b)) order) := by
  unfold Store.reseed
  by_cases heq : seed = store.seed
  · rw [if_pos heq, if_pos heq]
    exact hindexed
  · rw [if_neg heq, if_neg heq, Std.ExtTreeMap.foldl_eq_foldl_toList, ← hindexed.entities_eq_sortBy]
    let cleared : Store S := { store with seed, buckets := ∅ }
    have hcleared (key : Key) : cleared.buckets[key]? = kept [] := by
      simp [cleared]
    obtain ⟨buckets, hfold⟩ := foldl_enlist store.rows.toList cleared
    refine ⟨store.nodup_entities, fun entity => ?_, fun key => ?_⟩
    · rw [hfold]
      exact mem_entities
    · have hlisted := getElem?_buckets_foldl_enlist (hcleared key) store.rows.toList
      rw [List.nil_append, cleared.flatMap_toList_rows] at hlisted
      rw [hlisted, hfold]
      rfl

/-- Each call keeps the lists exact, and moves entities within the order as it places them. A change
of the seed is the one call that lists everybody afresh. -/
theorem Indexed.run {store : Store S} {order : List EntityId} (hsound : store.Sound)
    (hindexed : store.Indexed order) (call : Call S) :
    (call.run store).Indexed (call.reorder store order) := by
  rcases hsound.run_cases_any call order with ⟨seed, rfl⟩ | hchanges
  · exact hindexed.reseed seed
  · exact hchanges.indexed hindexed

/-- Setting entities back places them again in ascending order, behind all that are not listed. -/
theorem Indexed.restore {store after : Store S} {order : List EntityId} (hsound : store.Sound)
    (hindexed : store.Indexed order) {snapshot : Snapshot}
    (hrestore : store.restore snapshot = .ok () after) :
    after.Indexed (snapshot.keys.foldl Call.toEnd order) := by
  have hafter : (Call.restore snapshot).run store = after := congrArg stateOf hrestore
  have hrun := hindexed.run hsound (.restore snapshot)
  rwa [hafter, Call.reorder, hrestore] at hrun

/-- Whatever calls are made on a fresh store, its conditions and the exactness of its lists hold
together. Each needs the other at the next call. -/
theorem sound_and_indexed_runAll (seed : UInt32) (calls : List (Call S)) :
    (Call.runAll calls (Store.empty seed)).Sound ∧
      (Call.runAll calls (Store.empty seed)).Indexed (Call.placement calls (.empty seed) []) :=
  Call.runAll_induction (fun store order => store.Sound ∧ store.Indexed order)
    (fun _ _ call hstore => ⟨hstore.1.run call, hstore.2.run hstore.1 call⟩) calls
    ⟨Sound.empty seed, Indexed.empty seed⟩

/-- In every store that calls lead to the lists are exact, for some order of placement. -/
theorem Reachable.exists_indexed {store : Store S} (hreachable : store.Reachable) :
    ∃ order, store.Indexed order := by
  obtain ⟨seed, calls, rfl⟩ := hreachable
  exact ⟨_, (sound_and_indexed_runAll seed calls).2⟩

/-- After any calls, failing ones included, the order of placement holds exactly the live entities,
each once, and under every key each entity of that order is listed as often as components of its row
make up the key. A key without entries has no list at all. -/
theorem bucket?_eq_listing_of_calls (seed : UInt32) (calls : List (Call S)) :
    let store := Call.runAll calls (Store.empty seed)
    let order := Call.placement calls (.empty seed) []
    order.Nodup ∧ (∀ entity, entity ∈ order ↔ store.contains entity = true) ∧
      ∀ key, store.bucket? key =
        if store.listing order key = [] then none else some (store.listing order key).toArray := by
  obtain ⟨_, hindexed⟩ := sound_and_indexed_runAll seed calls
  refine ⟨hindexed.nodup, fun entity => ?_, hindexed.buckets⟩
  rw [hindexed.mem_iff]
  exact Std.ExtTreeMap.mem_iff_contains

end EntityWorld.Store
