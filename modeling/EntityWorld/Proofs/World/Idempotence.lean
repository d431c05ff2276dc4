import EntityWorld.Proofs.Store.Numbers
import EntityWorld.Proofs.Store.RoundTrip
import EntityWorld.Proofs.Store.Twin
import EntityWorld.Proofs.World.Histories

namespace EntityWorld.Store

variable {S : Schema} {σ : Type}

/-- What is built depends on the known types only, and on nothing else in the store. -/
theorem buildRows_congr {store other : Store S} (hfactories : other.factories = store.factories)
    (snapshot : Snapshot) : other.buildRows snapshot = store.buildRows snapshot := by
  have hrebuild : other.rebuild = store.rebuild := by
    funext name fields
    rw [rebuild, rebuild, build?, build?, hfactories]
  rw [buildRows, buildRows, hrebuild]

/-- Components of known names can be placed without anything being learned, whether or not they are
of the types that are known. -/
theorem factories_placeAll {store after : Store S} {rows : List (EntityId × List (Component S))}
    (hknown : ∀ entry ∈ rows, ∀ type ∈ entry.2.map Component.type, type.name ∈ store.factories)
    (hplaced : store.placeAll rows = .ok () after) : after.factories = store.factories := by
  induction rows generalizing store with
  | nil =>
    cases hplaced
    rfl
  | cons entry rows ih =>
    unfold placeAll at hplaced
    split at hplaced
    case h_1 => cases hplaced
    case h_2 middle hplace =>
      obtain ⟨row, hrow, rfl⟩ := place_eq_ok hplace
      have hfirst : ((store.eraseRow entry.1).insertRow entry.1 row).factories =
          store.factories := by
        have hrowKnown := forall_types_of_ofList hrow (hknown entry List.mem_cons_self)
        rw [factories_insertRow, factories_learn_of_known, factories_eraseRow]
        rwa [factories_eraseRow]
      refine (ih (fun other hother => ?_) hplaced).trans hfirst
      rw [hfirst]
      exact hknown other (List.mem_cons_of_mem entry hother)

/-- Whatever can be rebuilt is of a known type, so setting a store back teaches it nothing. -/
theorem Sound.factories_restore {store after : Store S} (hsound : store.Sound)
    {snapshot : Snapshot} (hrestore : store.restore snapshot = .ok () after) :
    after.factories = store.factories := by
  obtain ⟨rows, hbuilt, hplaced⟩ := restore_eq_ok_iff.mp hrestore
  refine factories_placeAll (forall_types_of_buildRows (fun {name type} hfound => ?_) hbuilt) hplaced
  rw [hsound.named hfound]
  exact mem_iff_exists_getElem?.mpr ⟨type, hfound⟩

/-- Rows that are placed again are there already, and the next number is beyond them already. What
differs is at most the order in the lists. -/
theorem Placed.again {store after again : Store S} {rows : List (EntityId × List (Component S))}
    (hfirst : store.Placed rows after) (hsecond : after.Placed rows again) :
    again.rows = after.rows ∧ again.nextId = after.nextId := by
  constructor
  · refine Std.ExtTreeMap.ext_getElem? fun entity => ?_
    by_cases hlisted : entity ∈ rows.map Prod.fst
    · obtain ⟨entry, hentry, rfl⟩ := List.mem_map.mp hlisted
      obtain ⟨row, hrow, hafter⟩ := hfirst.listed entry hentry
      obtain ⟨other, hother, hagain⟩ := hsecond.listed entry hentry
      rw [hafter, hagain, Except.ok.inj (hother.symm.trans hrow)]
    · exact hsecond.others entity hlisted
  · have hle (bound : Nat) : again.nextId.toNat ≤ bound ↔ after.nextId.toNat ≤ bound := by
      rw [hsecond.nextId, hfirst.nextId, toNat_foldl_max, toNat_foldl_max, foldl_max_le_iff,
        foldl_max_le_iff, and_assoc, and_self]
    refine UInt32.toNat_inj.mp (Nat.le_antisymm ?_ ?_)
    · exact (hle _).mpr (Nat.le_refl _)
    · exact (hle _).mp (Nat.le_refl _)

/-- Entities at the end of an order stay where they are when they are moved there again, one after
another. -/
theorem foldl_toEnd_again {moved order : List EntityId} (horder : order.Nodup)
    (hmoved : moved.Nodup) :
    moved.foldl Call.toEnd (moved.foldl Call.toEnd order) = moved.foldl Call.toEnd order := by
  have hafter : (order.filter (· ∉ moved) ++ moved).Nodup := by
    refine List.nodup_append.mpr ⟨horder.filter _, hmoved, ?_⟩
    rintro entity hentity _ hother rfl
    simp [hother] at hentity
  rw [foldl_toEnd horder hmoved, foldl_toEnd hafter hmoved, List.filter_append,
    List.filter_filter]
  simp

/-- Setting a store back to a snapshot for a second time succeeds and changes nothing. The first
time learned no types, so the second one builds the same rows, and it moves the listed entities to
where the first one has left them. -/
theorem Sound.restore_again {store after : Store S} (hsound : store.Sound) {order : List EntityId}
    (hindexed : store.Indexed order) {snapshot : Snapshot}
    (hrestore : store.restore snapshot = .ok () after) :
    after.restore snapshot = .ok () after := by
  obtain ⟨rows, hbuilt, hplaced⟩ := restore_eq_ok_iff.mp hrestore
  have hrun : (Call.restore snapshot).run store = after := congrArg stateOf hrestore
  have hafter : after.Sound := hrun ▸ hsound.run (.restore snapshot)
  have hfactories := hsound.factories_restore hrestore
  have hrebuilt : after.buildRows snapshot = .ok rows := (buildRows_congr hfactories _).trans hbuilt
  obtain ⟨again, hreplaced⟩ := hafter.exists_placeAll_eq_ok hrebuilt
  have hagain : after.restore snapshot = .ok () again :=
    restore_eq_ok_iff.mpr ⟨rows, hrebuilt, hreplaced⟩
  have hkeys : (rows.map Prod.fst).Nodup :=
    map_fst_of_buildRows hbuilt ▸ Std.ExtTreeMap.nodup_keys
  obtain ⟨hrows, hnext⟩ :=
    (placed_of_placeAll hkeys hplaced).again (placed_of_placeAll hkeys hreplaced)
  have htwin : after.Twin again := ⟨hrows, hafter.factories_restore hagain, hnext⟩
  have hseed : again.seed = after.seed := by
    have hrerun : (Call.restore snapshot).run after = again := congrArg stateOf hagain
    exact hrerun ▸ hafter.seed_run (.restore snapshot) (by simp)
  have hplacement := hindexed.restore hsound hrestore
  have hreplacement := hplacement.restore hafter hagain
  rw [foldl_toEnd_again hindexed.nodup Std.ExtTreeMap.nodup_keys] at hreplacement
  rw [hagain, htwin.eq hplacement hreplacement hseed]

/-- Whatever calls and updates lead to a store, setting it back to a snapshot that it takes for a
second time succeeds and changes nothing: not the rows, not the next number, not the known types,
and not the order in any list. -/
theorem restore_restore (seed : UInt32) (operations : List (Operation S σ)) (snapshot : Snapshot)
    (after : Store S)
    (hrestore : (Operation.runAll operations (.empty seed)).restore snapshot = .ok () after) :
    after.restore snapshot = .ok () after := by
  have hempty : (empty seed : Store S).Sound := .empty seed
  obtain ⟨order, hindexed⟩ := exists_indexed_operateAll hempty (.empty seed) operations
  exact (hempty.operateAll operations).restore_again hindexed hrestore

/-- Of two entities the first is set back: it moves behind the second one, and stays there when it
is set back again. -/
theorem restore_restore_pair :
    let operations : List (Operation Zoo.schema Unit) :=
      [.call (.create [Zoo.plain]), .call (.create [Zoo.plain])]
    let snapshot : Snapshot :=
      Std.ExtTreeMap.empty.insert 0
        (Std.ExtTreeMap.empty.insert "zoo::A" (Std.ExtTreeMap.empty.insert "0" (.uint 3)))
    ∃ after, (Operation.runAll operations (.empty 7)).restore snapshot = .ok () after ∧
      after.bucket? (after.keyOf ["zoo::A"]) = some #[1, 0] ∧
      after.restore snapshot = .ok () after := by
  intro operations snapshot
  refine ⟨_, rfl, ?_, restore_restore 7 operations snapshot _ rfl⟩
  decide +kernel

end EntityWorld.Store
