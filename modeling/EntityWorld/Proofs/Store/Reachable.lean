import EntityWorld.Proofs.Store.Changes

namespace EntityWorld.Store

variable {S : Schema}

/-- A type is registered under its own name, and replaces none that is known already. -/
theorem Sound.register {store : Store S} (hsound : store.Sound) (type : TypeId) :
    (store.register type).Sound := by
  refine ⟨fun {name found} hfound => ?_, hsound.ascending, fun hrow other hother => ?_,
    hsound.numbered⟩
  · rw [Store.register, Std.ExtTreeMap.getElem?_insert] at hfound
    split at hfound
    case isTrue heq =>
      obtain rfl := Option.some.inj hfound
      exact Std.LawfulEqOrd.eq_of_compare heq
    case isFalse => exact hsound.named hfound
  · exact Std.ExtTreeMap.mem_insert.mpr (.inr (hsound.known hrow other hother))

/-- Listing rows afresh leaves everything alone but the lists. This is all that a change of the seed
does besides the seed itself. -/
theorem foldl_enlist (rows : List (EntityId × Row S)) (store : Store S) :
    ∃ buckets, rows.foldl (fun store entry => store.enlist entry.1 entry.2) store =
      { store with buckets } := by
  induction rows generalizing store with
  | nil => exact ⟨store.buckets, rfl⟩
  | cons entry rows ih =>
    obtain ⟨buckets, hfold⟩ := ih (store.enlist entry.1 entry.2)
    exact ⟨buckets, hfold⟩

theorem reseed_eq (store : Store S) (seed : UInt32) :
    ∃ buckets, store.reseed seed = { store with seed, buckets } := by
  unfold reseed
  split
  case isTrue heq => exact ⟨store.buckets, by rw [heq]⟩
  case isFalse =>
    rw [Std.ExtTreeMap.foldl_eq_foldl_toList]
    exact foldl_enlist _ _

theorem Sound.reseed {store : Store S} (hsound : store.Sound) (seed : UInt32) :
    (store.reseed seed).Sound := by
  obtain ⟨buckets, heq⟩ := store.reseed_eq seed
  rw [heq]
  exact hsound.congr (fun _ => rfl) rfl rfl

theorem Changes.sound {P : TypeId → Prop} {store after : Store S} {order placed : List EntityId}
    (hchanges : Changes P store order after placed) (hsound : store.Sound) : after.Sound := by
  induction hchanges with
  | refl => exact hsound
  | insert _ _ hrow _ hnext hentity ih => exact ih.insertRow hrow hnext hentity
  | erase _ entity ih => exact ih.eraseRow entity
  | write _ hsame ih => exact ih.of_sameLayout hsame
  | register _ type _ ih => exact ih.register type

/-- Every call keeps the conditions of a store, whether or not it succeeds. -/
theorem Sound.run {store : Store S} (hsound : store.Sound) (call : Call S) :
    (call.run store).Sound := by
  rcases hsound.run_cases_any call [] with ⟨seed, rfl⟩ | hchanges
  · exact hsound.reseed seed
  · exact hchanges.sound hsound

/-- Only a change of the seed changes the seed, so between two of them all keys are made alike. -/
theorem Sound.seed_run {store : Store S} (hsound : store.Sound) (call : Call S)
    (hcall : ∀ seed, call ≠ .reseed seed) : (call.run store).seed = store.seed := by
  rcases hsound.run_cases_any call [] with ⟨seed, rfl⟩ | hchanges
  · exact absurd rfl (hcall seed)
  · exact hchanges.seed_eq

theorem Sound.runAll {store : Store S} (hsound : store.Sound) (calls : List (Call S)) :
    (Call.runAll calls store).Sound := by
  induction calls generalizing store with
  | nil => exact hsound
  | cons call calls ih => exact ih (hsound.run call)

/-- The conditions hold in every store that calls lead to. All that is shown of sound stores is
shown of these. -/
theorem Reachable.sound {store : Store S} (hreachable : store.Reachable) : store.Sound := by
  obtain ⟨seed, calls, rfl⟩ := hreachable
  exact (Sound.empty seed).runAll calls

end EntityWorld.Store
