import EntityWorld.Proofs.Store.Reachable
import EntityWorld.Proofs.Store.Rebuild

namespace EntityWorld.Store

variable {S : Schema}

/-- All types in a store, those that it rebuilds components by included, are among some types. In
a run without two types of one name these are the ones by which components of their names are
rebuilt. -/
structure Within (store : Store S) (P : TypeId → Prop) : Prop where
  rows : ∀ {entity : EntityId} {row : Row S}, store.rows[entity]? = some row →
    ∀ type ∈ row.types, P type
  factories : ∀ {name : String} {type : TypeId}, store.factories[name]? = some type → P type

variable {P : TypeId → Prop}

theorem Within.empty (seed : UInt32) : (Store.empty seed : Store S).Within P where
  rows hfound := by simp [Store.empty] at hfound
  factories hfound := by simp [Store.empty] at hfound

theorem Within.congr {before after : Store S} (hwithin : before.Within P)
    (htypes : ∀ entity, after.typesOf entity = before.typesOf entity)
    (hfactories : after.factories = before.factories) : after.Within P where
  rows hrow := by
    obtain ⟨old, hbefore, heq⟩ := exists_row_of_typesOf
      (by rw [← htypes, typesOf_eq_some hrow])
    exact heq ▸ hwithin.rows hbefore
  factories hfound := hwithin.factories (hfactories ▸ hfound)

/-- Writing to components brings in no types. What is written is of a type that is there. -/
theorem Within.of_sameLayout {before after : Store S} (hwithin : before.Within P)
    (hsame : before.SameLayout after) : after.Within P :=
  hwithin.congr hsame.types hsame.factories

theorem Within.eraseRow {store : Store S} (hwithin : store.Within P) (entity : EntityId) :
    (store.eraseRow entity).Within P where
  rows hrow := by
    rw [rows_eraseRow, getElem?_rows_erase] at hrow
    split at hrow
    · cases hrow
    · exact hwithin.rows hrow
  factories hfound := hwithin.factories (by rwa [factories_eraseRow] at hfound)

/-- A row brings in its own types and no others, and is learned from only for these. -/
theorem Within.insertRow {store : Store S} (hwithin : store.Within P) (entity next : EntityId)
    {row : Row S} (hrow : ∀ type ∈ row.types, P type) :
    ({ store.insertRow entity row with nextId := next } : Store S).Within P where
  rows hfound := by
    simp only [rows_insertRow, getElem?_rows_insert] at hfound
    split at hfound
    · obtain rfl := Option.some.inj hfound
      exact hrow
    · exact hwithin.rows hfound
  factories hfound := by
    rcases getElem?_factories_learn hfound with hbefore | ⟨hmem, _⟩
    · exact hwithin.factories hbefore
    · exact hrow _ hmem

theorem Within.register {store : Store S} (hwithin : store.Within P) {type : TypeId}
    (htype : P type) : (store.register type).Within P where
  rows := hwithin.rows
  factories hfound := by
    rw [Store.register, Std.ExtTreeMap.getElem?_insert] at hfound
    split at hfound
    · obtain rfl := Option.some.inj hfound
      exact htype
    · exact hwithin.factories hfound

theorem Changes.within {store after : Store S} {order placed : List EntityId}
    (hchanges : Changes P store order after placed) (hwithin : store.Within P) : after.Within P := by
  induction hchanges with
  | refl => exact hwithin
  | @insert _ _ entity next _ _ _ _ htypes _ _ ih => exact ih.insertRow entity next htypes
  | erase _ entity ih => exact ih.eraseRow entity
  | write _ hsame ih => exact ih.of_sameLayout hsame
  | register _ type hnew ih => exact ih.register hnew

/-- A call brings in the types that it says, and a restore only some that the store knows. This is a
case distinction over the elementary changes that a call comes down to. -/
theorem Within.run {store : Store S} (hsound : store.Sound) (hwithin : store.Within P)
    (call : Call S) (hcall : ∀ type ∈ call.brings, P type) : (call.run store).Within P := by
  rcases hsound.run_cases hwithin.factories hcall [] with ⟨seed, rfl⟩ | hchanges
  · obtain ⟨buckets, heq⟩ := store.reseed_eq seed
    change (store.reseed seed).Within P
    rw [heq]
    exact hwithin.congr (fun _ => rfl) rfl
  · exact hchanges.within hwithin

theorem Within.runAll {store : Store S} (hsound : store.Sound) (hwithin : store.Within P)
    (calls : List (Call S)) (hcalls : ∀ type ∈ calls.flatMap Call.brings, P type) :
    (Call.runAll calls store).Within P := by
  induction calls generalizing store with
  | nil => exact hwithin
  | cons call calls ih =>
    rw [List.flatMap_cons] at hcalls
    exact ih (hsound.run call)
      (hwithin.run hsound call fun type htype => hcalls type (List.mem_append_left _ htype))
      fun type htype => hcalls type (List.mem_append_right _ htype)

/-- If no two types in use share a name, every component is rebuilt by its own type. What a name is
rebuilt by is a type of that name, and there is only one. -/
theorem Within.registers {store : Store S} (hsound : store.Sound) (hwithin : store.Within P)
    (hinjective : ∀ a b, P a → P b → a.name = b.name → a = b) : store.Registers store := by
  intro entity row hrow type htype
  obtain ⟨found, hfound⟩ := mem_iff_exists_getElem?.mp (hsound.known hrow type htype)
  rw [hfound, hinjective found type (hwithin.factories hfound) (hwithin.rows hrow type htype)
    (hsound.named hfound)]

end EntityWorld.Store
