import EntityWorld.Proofs.Signature
import EntityWorld.Zoo
import Mathlib.Algebra.Ring.Parity

namespace EntityWorld

variable {α β : Type} {S : Schema}

theorem choose_map (f : α → β) (size : Nat) (items : List α) :
    choose size (items.map f) = (choose size items).map (List.map f) := by
  have hfound : ∀ item ∈ items, ((some ∘ f) item).isSome := fun _ _ => rfl
  have hmap := map_filterMap_choose size hfound
  simpa [List.filterMap_eq_map] using hmap.symm

theorem subsets_map (f : α → β) (items : List α) :
    subsets (items.map f) = (subsets items).map (List.map f) := by
  simp only [subsets_eq_flatMap_choose, choose_map, List.length_map, List.map_flatMap]

namespace Key

/-- The two halves of a sum are the halves of the sum of the numbers. Neither half carries over into
the other. -/
theorem toNat_combine (k l : Key) : (k.combine l).toNat = k.toNat ^^^ l.toNat := by
  have htestBit (key : Key) (place : Nat) : key.toNat.testBit place =
      if place < 64 then key.low.toNat.testBit place else key.high.toNat.testBit (place - 64) := by
    rw [toNat, Nat.shiftLeft_eq, Nat.mul_comm]
    exact Nat.testBit_two_pow_mul_add _ key.low.toNat_lt place
  refine Nat.eq_of_testBit_eq fun place => ?_
  rw [Nat.testBit_xor, htestBit, htestBit, htestBit]
  simp only [combine, UInt64.toNat_xor, Nat.testBit_xor]
  split <;> rfl

theorem combine_eq_identity_iff {k l : Key} : k.combine l = identity ↔ k = l :=
  ⟨fun hsum => combine_left_injective ((combine_self k).trans hsum.symm),
    fun heq => heq ▸ combine_self k⟩

/-- The key of two lists together is the sum of their keys, whichever names they share. -/
theorem ofNames_append (names others : List String) (seed : UInt32) :
    ofNames (names ++ others) seed = (ofNames names seed).combine (ofNames others seed) := by
  induction names with
  | nil => simp
  | cons name names ih => rw [List.cons_append, ofNames_cons, ofNames_cons, ih, combine_assoc]

/-- A name that is listed twice cancels out, as every key is its own opposite. -/
theorem ofNames_cons_cons (name : String) (names : List String) (seed : UInt32) :
    ofNames (name :: name :: names) seed = ofNames names seed := by
  rw [ofNames_cons, ofNames_cons, combine_cancel_left]

/-- If every name occurs an even number of times, all of them cancel out. The induction is on the
length, two occurrences of a name at a time. -/
theorem ofNames_of_even {names : List String} (heven : ∀ name, Even (names.count name))
    (seed : UInt32) : ofNames names seed = identity := by
  induction hlength : names.length using Nat.strong_induction_on generalizing names with
  | _ length ih =>
    cases names with
    | nil => rfl
    | cons name rest =>
      have hmem : name ∈ rest := by
        by_contra hnot
        have hone := heven name
        rw [List.count_cons_self, List.count_eq_zero_of_not_mem hnot] at hone
        exact absurd hone (by decide)
      have hperm : (name :: rest).Perm (name :: name :: rest.erase name) :=
        (List.perm_cons_erase hmem).cons name
      have hshorter : (rest.erase name).length < length := by
        rw [← hlength, List.length_erase_of_mem hmem, List.length_cons]
        omega
      rw [ofNames_perm hperm, ofNames_cons_cons]
      refine ih _ hshorter (fun other => ?_) rfl
      have hother := heven other
      rw [hperm.count_eq, List.count_cons, List.count_cons] at hother
      split at hother
      · simpa [Nat.even_add_one] using hother
      · simpa using hother

/-- The key of names depends only on which of them occur an odd number of times: the two lists
together have every name an even number of times, and cancel out. -/
theorem ofNames_of_odd_iff {names others : List String}
    (hodd : ∀ name, Odd (names.count name) ↔ Odd (others.count name)) (seed : UInt32) :
    ofNames names seed = ofNames others seed := by
  rw [← combine_eq_identity_iff, ← ofNames_append]
  refine ofNames_of_even (fun name => ?_) seed
  rw [List.count_append, Nat.even_add', hodd]

end Key

/-- The key that a signature asks for can be summed up in any order, since sums do not depend on
it. -/
theorem Signature.key_eq_foldl {signature : Signature} {keys : List Key} {seed : UInt32}
    (hkeys : keys.Perm (signature.types.map fun type => Key.ofName type.name seed)) :
    signature.key seed = keys.foldl Key.combine Key.identity := by
  rw [key, Key.ofNames_eq_foldl, hkeys.foldl_op_eq, types, List.map_map, List.map_map]
  rfl

namespace Row

/-- The keys of a row are those of the names of its subsets, in the order in which subsets are
drawn. -/
theorem keys_eq_map_ofNames (row : Row S) (seed : UInt32) :
    row.keys seed = (subsets row).map fun part => Key.ofNames (part.map Component.name) seed := by
  rw [keys, subsets_map, List.map_map]
  refine List.map_congr_left fun part _ => ?_
  simp [Key.ofNames_eq_foldl, Function.comp_def]

/-- A part of a row that a signature asks for has the key of the signature, summed up in the order
of the row. -/
theorem key_eq_foldl {part : Row S} {signature : Signature}
    (htypes : part.types.Perm signature.types) (seed : UInt32) :
    signature.key seed =
      (part.map fun component => Key.ofName component.name seed).foldl Key.combine
        Key.identity := by
  refine Signature.key_eq_foldl ?_
  rw [types] at htypes
  simpa [Function.comp_def, Component.name] using
    htypes.map fun type : TypeId => Key.ofName type.name seed

end Row

/-- Keys of lists of names add up. Only the names that occur an odd number of times count, in no
order, and two lists together have the sum of their keys. Sums are those of a group in which each
key is its own opposite, half by half as on the whole numbers. So what a signature asks for has one
key in whatever order it is summed up, which is among the keys of every row that has all of it. -/
theorem Key.ofNames_homomorphism (S : Schema) (seed : UInt32) :
    (∀ names others : List String,
      (∀ name, Odd (names.count name) ↔ Odd (others.count name)) →
        ofNames names seed = ofNames others seed) ∧
    (∀ names others : List String, names.Perm others → ofNames names seed = ofNames others seed) ∧
    (∀ (name : String) (names : List String),
      ofNames (name :: name :: names) seed = ofNames names seed) ∧
    (∀ names others : List String,
      ofNames (names ++ others) seed = (ofNames names seed).combine (ofNames others seed)) ∧
    ofNames [] seed = identity ∧
    (∀ k l m : Key,
      (k.combine l).toNat = k.toNat ^^^ l.toNat ∧
      k.combine l = l.combine k ∧
      (k.combine l).combine m = k.combine (l.combine m) ∧
      k.combine identity = k ∧ identity.combine k = k ∧
      k.combine k = identity) ∧
    (∀ (signature : Signature) (keys : List Key),
      keys.Perm (signature.types.map fun type => ofName type.name seed) →
        signature.key seed = keys.foldl combine identity) ∧
    ∀ row : Row S,
      row.keys seed = (subsets row).map (fun part => ofNames (part.map Component.name) seed) ∧
      ∀ (signature : Signature) (part : Row S), part ∈ subsets row →
        part.types.Perm signature.types →
        signature.key seed =
          (part.map fun component => ofName component.name seed).foldl combine identity ∧
        signature.key seed ∈ row.keys seed := by
  refine ⟨fun _ _ hodd => ofNames_of_odd_iff hodd seed, fun _ _ hperm => ofNames_perm hperm seed,
    fun name names => ofNames_cons_cons name names seed,
    fun names others => ofNames_append names others seed, rfl, fun k l m => ?_,
    fun _ _ => Signature.key_eq_foldl, fun row => ⟨row.keys_eq_map_ofNames seed, ?_⟩⟩
  · exact ⟨toNat_combine k l, combine_comm k l, combine_assoc k l m, combine_identity k,
      identity_combine k, combine_self k⟩
  · intro signature part hpart htypes
    have hkey := Row.key_eq_foldl htypes seed
    refine ⟨hkey, ?_⟩
    rw [row.keys_eq_map_ofNames, hkey]
    refine List.mem_map.mpr ⟨part, hpart, ?_⟩
    rw [ofNames_eq_foldl, List.map_map]
    rfl

/-- A name that is listed twice among others is as good as not listed, and a signature finds the
entities that have what it asks for in another order. -/
theorem Key.ofNames_homomorphism_reversed :
    let row : Row Zoo.schema := [.initial { name := "zoo::A" }, .initial { name := "zoo::B" }]
    let signature : Signature :=
      [.component { name := "zoo::B" } .read, .component { name := "zoo::A" } .write]
    ofNames ["zoo::A", "zoo::B", "zoo::A"] 7 = ofNames ["zoo::B"] 7 ∧
      signature.key 7 ∈ row.keys 7 := by
  intro row signature
  obtain ⟨hodd, -, -, -, -, -, -, hrows⟩ := ofNames_homomorphism Zoo.schema 7
  have hpart : row ∈ subsets row := by
    rw [subsets_eq_flatMap_choose]
    exact List.mem_flatMap.mpr ⟨2, by decide, List.mem_singleton_self row⟩
  have htypes : row.types.Perm signature.types := .swap _ _ _
  refine ⟨hodd _ _ fun name => ?_, ((hrows row).2 signature row hpart htypes).2⟩
  by_cases hname : "zoo::A" = name
  · simp [← hname]
  · simp [hname, List.count_cons]

end EntityWorld
