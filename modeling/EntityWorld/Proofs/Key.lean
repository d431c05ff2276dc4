import EntityWorld.Key
import Mathlib.Data.List.Dedup
import Mathlib.Data.List.Perm.Basic
import Mathlib.Data.List.Sublists

namespace EntityWorld.Key

theorem combine_comm (k l : Key) : k.combine l = l.combine k := by
  simp only [combine, UInt64.xor_comm]

theorem combine_assoc (k l m : Key) : (k.combine l).combine m = k.combine (l.combine m) := by
  simp only [combine, UInt64.xor_assoc]

@[simp] theorem identity_combine (k : Key) : identity.combine k = k := by
  simp [combine, identity]

@[simp] theorem combine_identity (k : Key) : k.combine identity = k := by
  simp [combine, identity]

@[simp] theorem combine_self (k : Key) : k.combine k = identity := by
  simp [combine, identity]

instance : Std.Commutative combine := ⟨combine_comm⟩

instance : Std.Associative combine := ⟨combine_assoc⟩

/-- Adding a key is undone by adding it once more, since every key is its own opposite. -/
theorem combine_cancel_left (k l : Key) : k.combine (k.combine l) = l := by
  rw [← combine_assoc, combine_self, identity_combine]

theorem combine_left_injective {k l m : Key} (heq : k.combine l = k.combine m) : l = m := by
  rw [← combine_cancel_left k l, heq, combine_cancel_left]

@[simp] theorem isIdentity_iff {k : Key} : k.isIdentity = true ↔ k = identity := by
  simp [isIdentity]

/-- What a sum starts from can be added at its end, so sums can be compared however far they have
come. -/
theorem foldl_combine (start : Key) (keys : List Key) :
    keys.foldl combine start = start.combine (keys.foldl combine identity) := by
  induction keys generalizing start with
  | nil => simp
  | cons key keys ih =>
    simp only [List.foldl_cons, identity_combine]
    rw [ih (start.combine key), ih key, combine_assoc]

/-- Sorting the names first does not matter for their key, which is the sum of the keys of the
names. -/
theorem ofNames_eq_foldl (names : List String) (seed : UInt32) :
    ofNames names seed = (names.map (ofName · seed)).foldl combine identity := by
  have hsorted : (sortBy (fun a b => decide (a ≤ b)) names).Perm names := sortBy_perm names
  rw [← (hsorted.map (ofName · seed)).foldl_op_eq, ofNames, List.foldl_map]

@[simp] theorem ofNames_nil (seed : UInt32) : ofNames [] seed = identity := rfl

theorem ofNames_cons (name : String) (names : List String) (seed : UInt32) :
    ofNames (name :: names) seed = (ofName name seed).combine (ofNames names seed) := by
  simp only [ofNames_eq_foldl, List.map_cons, List.foldl_cons, identity_combine]
  exact foldl_combine _ _

/-- The key of names does not depend on their order. This is why entities can be looked up by names
in any order. -/
theorem ofNames_perm {names others : List String} (hperm : names.Perm others) (seed : UInt32) :
    ofNames names seed = ofNames others seed := by
  simp only [ofNames_eq_foldl]
  exact (hperm.map _).foldl_op_eq

/-- Keys of sublists are closed under addition: names that stand in both of two sublists cancel out,
and the others make up a sublist again. -/
theorem exists_sublist_ofNames_eq_combine (seed : UInt32) {names first second : List String}
    (hfirst : first.Sublist names) (hsecond : second.Sublist names) :
    ∃ both, both.Sublist names ∧
      ofNames both seed = (ofNames first seed).combine (ofNames second seed) := by
  induction names generalizing first second with
  | nil =>
    obtain rfl := List.sublist_nil.mp hfirst
    obtain rfl := List.sublist_nil.mp hsecond
    exact ⟨[], .refl _, by simp⟩
  | cons name names ih =>
    rcases List.sublist_cons_iff.mp hfirst with hleft | ⟨left, rfl, hleft⟩ <;>
      rcases List.sublist_cons_iff.mp hsecond with hright | ⟨right, rfl, hright⟩ <;>
      obtain ⟨both, hboth, hkey⟩ := ih hleft hright
    · exact ⟨both, hboth.cons name, hkey⟩
    · refine ⟨name :: both, hboth.cons_cons name, ?_⟩
      rw [ofNames_cons, ofNames_cons, hkey, ← combine_assoc, combine_comm (ofName name seed),
        combine_assoc]
    · refine ⟨name :: both, hboth.cons_cons name, ?_⟩
      rw [ofNames_cons, ofNames_cons, hkey, combine_assoc]
    · refine ⟨both, hboth.cons name, ?_⟩
      rw [ofNames_cons, ofNames_cons, hkey, combine_assoc, ← combine_assoc (ofNames left seed),
        combine_comm (ofNames left seed) (ofName name seed), combine_assoc, combine_cancel_left]

/-- If no non-empty sublist has the identity as its key, then different sublists have different
keys: two with the same key would cancel out to such a sublist. -/
theorem nodup_ofNames_sublists' {names : List String} {seed : UInt32}
    (hfree : ∀ part, part.Sublist names → part ≠ [] → ofNames part seed ≠ identity) :
    (names.sublists'.map (ofNames · seed)).Nodup := by
  induction names with
  | nil => simp
  | cons name names ih =>
    have hrest := ih fun part hpart => hfree part (hpart.cons name)
    rw [List.sublists'_cons, List.map_append, List.map_map]
    refine List.nodup_append.mpr ⟨hrest, ?_, ?_⟩
    · have hcons : (ofNames · seed) ∘ List.cons name =
          (combine (ofName name seed)) ∘ (ofNames · seed) := by
        funext part
        exact ofNames_cons name part seed
      rw [hcons, ← List.map_map]
      exact hrest.map fun _ _ => combine_left_injective
    · intro key hwithout other hwith heq
      obtain ⟨first, hfirst, rfl⟩ := List.mem_map.mp hwithout
      obtain ⟨second, hsecond, rfl⟩ := List.mem_map.mp hwith
      rw [List.mem_sublists'] at hfirst hsecond
      obtain ⟨both, hboth, hkey⟩ := exists_sublist_ofNames_eq_combine seed hfirst hsecond
      refine hfree (name :: both) (hboth.cons_cons name) (by simp) ?_
      have hsecondKey : ofNames first seed = (ofName name seed).combine (ofNames second seed) := by
        simpa [ofNames_cons] using heq
      rw [ofNames_cons, hkey, hsecondKey, combine_assoc, combine_self, combine_identity,
        combine_self]

/-- No non-empty set of names out of a pool has the identity as its key. Real names can fail this
only by collisions of their hashes. -/
def Independent (pool : List String) (seed : UInt32) : Prop :=
  ∀ part : List String, part.Nodup → part ⊆ pool → part ≠ [] → ofNames part seed ≠ identity

/-- A set of names out of a pool, in the order of the pool. There are finitely many of these. -/
theorem exists_perm_sublist_dedup {pool part : List String} (hnodup : part.Nodup)
    (hsub : part ⊆ pool) :
    ∃ sorted : List String, sorted.Perm part ∧ sorted.Sublist pool.dedup :=
  List.subperm_of_subset hnodup fun _ hname => List.mem_dedup.mpr (hsub hname)

/-- It is enough to look at the finitely many sublists of the pool, so independence can be
decided. -/
theorem independent_iff {pool : List String} {seed : UInt32} :
    Independent pool seed ↔
      ∀ part ∈ pool.dedup.sublists, part ≠ [] → ofNames part seed ≠ identity := by
  refine ⟨fun hfree part hpart => ?_, fun hfree part hnodup hsub hne => ?_⟩
  · rw [List.mem_sublists] at hpart
    exact hfree part (pool.nodup_dedup.sublist hpart) fun name hname =>
      List.mem_dedup.mp (hpart.subset hname)
  · obtain ⟨sorted, hperm, hsorted⟩ := exists_perm_sublist_dedup hnodup hsub
    rw [← ofNames_perm hperm]
    refine hfree sorted (List.mem_sublists.mpr hsorted) ?_
    rintro rfl
    exact hne (List.nil_perm.mp hperm)

instance (pool : List String) (seed : UInt32) : Decidable (Independent pool seed) :=
  decidable_of_iff _ independent_iff.symm

/-- Out of an independent pool only the same names have the same key. This is where a key can be
trusted to stand for a set of names. -/
theorem Independent.perm_of_ofNames_eq {pool first second : List String} {seed : UInt32}
    (hfree : Independent pool seed) (hfirst : first.Nodup) (hsecond : second.Nodup)
    (hfirstSub : first ⊆ pool) (hsecondSub : second ⊆ pool)
    (hkey : ofNames first seed = ofNames second seed) : first.Perm second := by
  obtain ⟨left, hleftPerm, hleft⟩ := exists_perm_sublist_dedup hfirst hfirstSub
  obtain ⟨right, hrightPerm, hright⟩ := exists_perm_sublist_dedup hsecond hsecondSub
  have hnodup := nodup_ofNames_sublists' fun part hpart =>
    independent_iff.mp hfree part (List.mem_sublists.mpr hpart)
  have heq : left = right := by
    refine List.inj_on_of_nodup_map hnodup (List.mem_sublists'.mpr hleft)
      (List.mem_sublists'.mpr hright) ?_
    rw [ofNames_perm hleftPerm, ofNames_perm hrightPerm, hkey]
  exact hleftPerm.symm.trans (heq ▸ hrightPerm)

end EntityWorld.Key
