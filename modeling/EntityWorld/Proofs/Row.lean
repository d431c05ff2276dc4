import EntityWorld.Proofs.Key
import EntityWorld.Proofs.Subsets
import EntityWorld.Store.Row

namespace EntityWorld

variable {S : Schema}

theorem Component.as?_self (component : Component S) :
    component.as? component.type = some component.record := by
  simp [as?]

/-- A component cannot be read as one of another type, even one of the same name. -/
theorem Component.as?_of_ne {component : Component S} {type : TypeId}
    (hne : component.type ≠ type) : component.as? type = none := by
  simp [as?, hne]

/-- What a component is read as is the component itself, so a record that is found settles type and
contents at once. -/
theorem Component.as?_eq_some_iff {component : Component S} {type : TypeId}
    {record : Record (S.fields type)} :
    component.as? type = some record ↔ component = ⟨type, record⟩ := by
  by_cases htype : component.type = type
  · subst htype
    rw [as?_self, Option.some_inj]
    exact ⟨fun heq => heq ▸ rfl, fun heq => by cases component; cases heq; rfl⟩
  · rw [as?_of_ne htype]
    exact iff_of_false nofun fun heq => htype (heq ▸ rfl)

namespace Row

/-- The types in a row, in its order. -/
def types (row : Row S) : List TypeId :=
  row.map Component.type

/-- Each type in a row comes before all that follow it, so none occurs twice. Every row that is made
from components is of this form. -/
def Ascending (row : Row S) : Prop :=
  row.types.Pairwise fun a b => compare a b = .lt

/-- In how many ways components of a row make up a key: how many of its non-empty sublists, each
choice of positions counted, have that key under a seed. It is more than one only where names are
shared or their hashes cancel out. -/
def multiplicity (row : Row S) (seed : UInt32) (key : Key) : Nat :=
  row.sublists.countP fun part => part ≠ [] ∧ Key.ofNames (part.map Component.name) seed = key

/-- The order of types is strict, so rows in order have each of them once. -/
theorem Ascending.nodup {row : Row S} (hrow : row.Ascending) : row.types.Nodup :=
  List.Pairwise.imp (fun hlt heq => by simp [heq] at hlt) hrow

/-- Rows in order with the same types, in whatever order, have them in the same order, since there
is only one way to put them in order. -/
theorem Ascending.types_eq_of_perm {row other : Row S} (hrow : row.Ascending)
    (hother : other.Ascending) (hperm : row.types.Perm other.types) : row.types = other.types := by
  refine hperm.eq_of_pairwise (fun a b _ _ hab hba => ?_) hrow hother
  have hlt := Std.TransCmp.lt_trans hab hba
  simp at hlt

/-- Rows in order with the same components, in whatever order, are the same. So the order in which
components were handed over leaves no trace in a row. -/
theorem Ascending.eq_of_perm {row other : Row S} (hrow : row.Ascending) (hother : other.Ascending)
    (hperm : row.Perm other) : row = other := by
  refine hperm.eq_of_pairwise (fun a b _ _ hab hba => ?_) (List.pairwise_map.mp hrow)
    (List.pairwise_map.mp hother)
  have hlt := Std.TransCmp.lt_trans hab hba
  simp at hlt

/-- A row has a component of a type exactly if the type is among its types. Names play no part in
this. -/
theorem contains_iff {row : Row S} {type : TypeId} :
    row.contains type = true ↔ type ∈ row.types := by
  simp [contains, types]

theorem find?_isSome {row : Row S} {type : TypeId} :
    (row.find? type).isSome = true ↔ type ∈ row.types := by
  rw [find?, List.findSome?_isSome_iff, types, List.mem_map]
  refine exists_congr fun component => and_congr_right fun _ => ?_
  by_cases heq : component.type = type <;> simp [Component.as?, heq]

/-- What is found of a type stands in its first column. This holds of any row, in order or not. -/
theorem find?_eq_some_iff_idxOf? {row : Row S} {type : TypeId}
    {record : Record (S.fields type)} :
    row.find? type = some record ↔
      ∃ index, row.types.idxOf? type = some index ∧ row[index]? = some ⟨type, record⟩ := by
  induction row with
  | nil => simp [find?, types]
  | cons first row ih =>
    rw [find?, types] at ih ⊢
    rw [List.findSome?_cons, List.map_cons, List.idxOf?_cons]
    by_cases htype : first.type = type
    · subst htype
      rw [Component.as?_self]
      simp [← Component.as?_eq_some_iff, Component.as?_self]
    · rw [Component.as?_of_ne htype, if_neg (by simpa using htype)]
      simpa using ih

/-- Where no type occurs twice, what is found of a type is what is there of it. This is the look-up
without a search. -/
theorem find?_eq_some_iff {row : Row S} (hnodup : row.types.Nodup) {type : TypeId}
    {record : Record (S.fields type)} : row.find? type = some record ↔ ⟨type, record⟩ ∈ row := by
  induction row with
  | nil => simp [find?]
  | cons first row ih =>
    obtain ⟨hfresh, hrest⟩ := List.nodup_cons.mp hnodup
    rw [find?, List.findSome?_cons, List.mem_cons]
    by_cases htype : first.type = type
    · subst htype
      have hlater : (⟨first.type, record⟩ : Component S) ∉ row := fun hmem =>
        hfresh (List.mem_map.mpr ⟨_, hmem, rfl⟩)
      rw [Component.as?_self, Option.some_inj, or_iff_left hlater]
      exact ⟨fun heq => heq ▸ rfl, fun heq => by cases first; cases heq; rfl⟩
    · have hother : (⟨type, record⟩ : Component S) ≠ first := fun heq => htype (heq ▸ rfl)
      rw [Component.as?_of_ne htype, or_iff_right hother]
      exact ih hrest

/-- The order of components does not matter to what is found of a type that occurs once. -/
theorem find?_eq_of_perm {row other : Row S} (hnodup : row.types.Nodup) (hperm : row.Perm other)
    (type : TypeId) : row.find? type = other.find? type := by
  have hother : other.types.Nodup := (hperm.map Component.type).nodup_iff.mp hnodup
  refine Option.ext fun record => ?_
  rw [find?_eq_some_iff hnodup, find?_eq_some_iff hother, hperm.mem_iff]

/-- In a row whose types ascend weakly, a missing neighbour of the same type means that they
ascend strictly. It is enough to compare neighbours since equal types stand next to each other
once sorted. -/
theorem ascending_of_duplicate?_eq_none {row : Row S}
    (hsorted : row.Pairwise fun a b => (compare a.type b.type).isLE)
    (hnone : row.duplicate? = none) : row.Ascending := by
  fun_induction duplicate? row with
  | case1 first second row heq => cases hnone
  | case2 first second row hne ih =>
    obtain ⟨hfirst, hrest⟩ := List.pairwise_cons.mp hsorted
    have hascending := ih hrest hnone
    have hlt : compare first.type second.type = .lt := by
      have hle := hfirst second List.mem_cons_self
      have hneq : compare first.type second.type ≠ .eq := by simpa using hne
      cases hcompare : compare first.type second.type <;> simp_all
    refine List.pairwise_cons.mpr ⟨fun type hmem => ?_, hascending⟩
    rcases List.mem_cons.mp hmem with rfl | hlater
    · exact hlt
    · exact Std.TransCmp.lt_trans hlt ((List.pairwise_cons.mp hascending).1 type hlater)
  | case3 row hshort =>
    match row, hshort with
    | [], _ => exact .nil
    | [component], _ => exact List.pairwise_singleton _ _
    | first :: second :: rest, hshort => exact absurd rfl (hshort first second rest)

theorem duplicate?_eq_none_of_nodup {row : Row S} (hnodup : row.types.Nodup) :
    row.duplicate? = none := by
  fun_induction duplicate? row with
  | case1 first second row heq => simp [types, heq] at hnodup
  | case2 first second row hne ih => exact ih (List.nodup_cons.mp hnodup).2
  | case3 row hshort => rfl

theorem pairwise_sortBy_type (components : List (Component S)) :
    (sortBy (fun a b => (compare a.type b.type).isLE) components).Pairwise
      fun a b => (compare a.type b.type).isLE := by
  refine pairwise_sortBy ?_ ?_ components
  · intro a b c hab hbc
    exact Std.TransCmp.isLE_trans hab hbc
  · intro a b
    have hswap : compare a.type b.type = (compare b.type a.type).swap := Std.OrientedCmp.eq_swap
    rw [hswap]
    cases compare b.type a.type <;> rfl

/-- A row made from components holds exactly these, in order. Nothing is dropped and nothing comes
in. -/
theorem ofList_eq_ok {components : List (Component S)} {row : Row S}
    (hrow : ofList components = .ok row) : row.Ascending ∧ row.Perm components := by
  simp only [ofList] at hrow
  split at hrow
  case h_1 => cases hrow
  case h_2 hnone =>
    obtain rfl := Except.ok.inj hrow
    exact ⟨ascending_of_duplicate?_eq_none (pairwise_sortBy_type components) hnone,
      sortBy_perm components⟩

/-- Components of distinct types make a row, for the only thing that can be wrong with them is a
type that occurs twice. -/
theorem exists_ofList_eq_ok {components : List (Component S)}
    (hnodup : (components.map Component.type).Nodup) : ∃ row, ofList components = .ok row := by
  let row : Row S := sortBy (fun a b => (compare a.type b.type).isLE) components
  have hperm : row.Perm components := sortBy_perm components
  have hnone := duplicate?_eq_none_of_nodup ((hperm.map Component.type).nodup_iff.mpr hnodup)
  refine ⟨row, ?_⟩
  simp only [ofList]
  rw [hnone]

/-- Components make a row exactly if their types are distinct. Otherwise some type is reported as a
duplicate, by its name. -/
theorem ofList_cases (components : List (Component S)) :
    (∃ row, ofList components = .ok row ∧ (components.map Component.type).Nodup) ∨
    (∃ name, ofList components = .error (.duplicateComponent name) ∧
      ¬(components.map Component.type).Nodup) := by
  by_cases hnodup : (components.map Component.type).Nodup
  · obtain ⟨row, hrow⟩ := exists_ofList_eq_ok hnodup
    exact .inl ⟨row, hrow, hnodup⟩
  · cases hrow : ofList components with
    | ok row =>
      obtain ⟨hascending, hperm⟩ := ofList_eq_ok hrow
      exact absurd ((hperm.map Component.type).nodup_iff.mp hascending.nodup) hnodup
    | error error =>
      simp only [ofList] at hrow
      split at hrow
      case h_1 type _ =>
        cases hrow
        exact .inr ⟨type.name, rfl, hnodup⟩
      case h_2 => cases hrow

/-- Components of distinct names are of distinct types. The converse fails, since types may share a
name. -/
theorem nodup_types_of_names {components : List (Component S)}
    (hnames : (components.map Component.name).Nodup) : (components.map Component.type).Nodup := by
  refine List.Nodup.of_map TypeId.name ?_
  rw [List.map_map]
  exact hnames

/-- A replacement is of the type of what it replaces, so the types of a row stay. -/
@[simp] theorem types_replace (row : Row S) (component : Component S) :
    (row.replace component).types = row.types := by
  fun_induction replace row component with
  | case1 => rfl
  | case2 first row heq => simp [types, heq]
  | case3 first row hne ih => simpa [types] using ih

/-- Components of other types are not replaced, even where their names are the same. -/
theorem find?_replace_of_ne {component : Component S} {type : TypeId}
    (hne : component.type ≠ type) (row : Row S) :
    (row.replace component).find? type = row.find? type := by
  fun_induction replace row component with
  | case1 => rfl
  | case2 first row heq =>
    have hfirst : first.type ≠ type := fun hfound => hne (heq ▸ hfound)
    simp [find?, Component.as?, hne, hfirst]
  | case3 first row _ ih =>
    simp only [find?, List.findSome?_cons] at ih ⊢
    rw [ih]

/-- A component that takes the place of one of its type is found there. One of a type that the row
lacks would replace nothing. -/
theorem find?_replace_self {row : Row S} {component : Component S}
    (hmem : component.type ∈ row.types) :
    (row.replace component).find? component.type = some component.record := by
  fun_induction replace row component with
  | case1 => cases hmem
  | case2 first row heq => rw [find?, List.findSome?_cons, Component.as?_self]
  | case3 first row hne ih =>
    rw [find?, List.findSome?_cons, Component.as?_of_ne hne]
    exact ih ((List.mem_cons.mp hmem).resolve_left (Ne.symm hne))

/-- What takes the place of a component takes the first column of its type, and all other columns
stay. -/
theorem replace_eq_set {row : Row S} {component : Component S} {index : Nat}
    (hindex : row.types.idxOf? component.type = some index) :
    row.replace component = row.set index component := by
  fun_induction replace row component generalizing index with
  | case1 => rfl
  | case2 first row htype =>
    rw [types, List.map_cons, List.idxOf?_cons, if_pos (by simpa using htype)] at hindex
    obtain rfl := Option.some.inj hindex
    rfl
  | case3 first row htype ih =>
    rw [types, List.map_cons, List.idxOf?_cons, if_neg (by simpa using htype)] at hindex
    obtain ⟨earlier, hearlier, rfl⟩ := Option.map_eq_some_iff.mp hindex
    rw [List.set_cons_succ, ih hearlier]

theorem map_name_eq (row : Row S) : row.map Component.name = row.types.map TypeId.name := by
  simp [types, Component.name, Function.comp_def]

/-- The keys of a row depend on its types alone, so changing what components hold never moves a
row. -/
theorem keys_congr {row other : Row S} (htypes : row.types = other.types) (seed : UInt32) :
    row.keys seed = other.keys seed := by
  have hnames : (row.map fun component => Key.ofName component.name seed) =
      other.map fun component => Key.ofName component.name seed := by
    simpa [types, Component.name, Function.comp_def] using
      congrArg (List.map fun type => Key.ofName type.name seed) htypes
  rw [keys, keys, hnames]

/-- A row is listed under a key once for each way in which its components make up the key. This
counts the very list that a store walks over when it places a row. -/
theorem count_keys (row : Row S) (seed : UInt32) (key : Key) :
    (row.keys seed).count key = row.multiplicity seed key := by
  let sum (part : List Key) := part.foldl Key.combine Key.identity
  have hperm := nil_cons_subsets_perm (row.map fun component => Key.ofName component.name seed)
  -- The empty sublist is the one that no subset stands for.
  have hcount := hperm.countP_eq fun part => decide (part ≠ [] ∧ sum part = key)
  rw [List.countP_cons_of_neg (by simp), List.sublists_map, List.countP_map] at hcount
  have hsubsets : (row.keys seed).count key =
      (subsets (row.map fun component => Key.ofName component.name seed)).countP
        fun part => decide (part ≠ [] ∧ sum part = key) := by
    rw [keys, List.count, List.countP_map]
    refine List.countP_congr fun part hpart => ?_
    have hne : part ≠ [] := ne_nil_of_mem_subsets hpart
    simp [hne, sum]
  rw [hsubsets, hcount, multiplicity]
  refine List.countP_congr fun part _ => ?_
  simp [sum, Key.ofNames_eq_foldl, Function.comp_def]

/-- The components of a row that stand for distinct items, one for each, in the order of the row.
Where several stand for one item, some of them is taken. -/
theorem exists_sublist_map_perm {α : Type} (f : Component S → α) {row : Row S} {items : List α}
    (hnodup : items.Nodup) (howned : items ⊆ row.map f) :
    ∃ part : Row S, part.Sublist row ∧ (part.map f).Perm items := by
  obtain ⟨found, hperm, hfound⟩ := List.subperm_of_subset hnodup howned
  obtain ⟨part, hpart, rfl⟩ := List.sublist_map_iff.mp hfound
  exact ⟨part, hpart, hperm⟩

theorem map_name_perm {part : Row S} {types : List TypeId} (hperm : part.types.Perm types) :
    (part.map Component.name).Perm (types.map TypeId.name) := by
  rw [map_name_eq]
  exact hperm.map TypeId.name

/-- A key is made up at all exactly if some non-empty part of the row has it. -/
theorem multiplicity_pos_iff {row : Row S} {seed : UInt32} {key : Key} :
    0 < row.multiplicity seed key ↔
      ∃ part : Row S, part.Sublist row ∧ part ≠ [] ∧
        Key.ofNames (part.map Component.name) seed = key := by
  simp [multiplicity, List.countP_pos_iff, List.mem_sublists]

/-- A part of a row is listed under the key of its names, in whatever order these are summed up. -/
theorem multiplicity_pos_of_perm {row part : Row S} (hpart : part.Sublist row)
    {names : List String} (hperm : (part.map Component.name).Perm names) (hne : names ≠ [])
    (seed : UInt32) : 0 < row.multiplicity seed (Key.ofNames names seed) := by
  refine multiplicity_pos_iff.mpr ⟨part, hpart, ?_, Key.ofNames_perm hperm seed⟩
  rintro rfl
  exact hne (List.nil_perm.mp hperm)

/-- A row is listed under the key of any names that its components have. So a look-up by names
misses nobody. -/
theorem multiplicity_pos_of_names {row : Row S} {names : List String} (hnames : names.Nodup)
    (hne : names ≠ []) (howned : names ⊆ row.map Component.name) (seed : UInt32) :
    0 < row.multiplicity seed (Key.ofNames names seed) := by
  obtain ⟨part, hpart, hperm⟩ := exists_sublist_map_perm Component.name hnames howned
  exact multiplicity_pos_of_perm hpart hperm hne seed

/-- A row is listed under the key of any types that it holds, even where these share names. What is
asked for by type is thus never missed, whatever the names. -/
theorem multiplicity_pos_of_types {row : Row S} {types : List TypeId} (htypes : types.Nodup)
    (hne : types ≠ []) (howned : types ⊆ row.types) (seed : UInt32) :
    0 < row.multiplicity seed (Key.ofNames (types.map TypeId.name) seed) := by
  obtain ⟨part, hpart, hperm⟩ := exists_sublist_map_perm Component.type htypes howned
  exact multiplicity_pos_of_perm hpart (map_name_perm hperm) (by simpa using hne) seed

/-- A row without components that cancel out is listed under no key twice, for two parts with one
key would cancel each other out. -/
theorem multiplicity_le_one {row : Row S} {seed : UInt32}
    (hfree : ∀ part : Row S, part.Sublist row → part ≠ [] →
      Key.ofNames (part.map Component.name) seed ≠ Key.identity) (key : Key) :
    row.multiplicity seed key ≤ 1 := by
  have hnames : ∀ part, part.Sublist (row.map Component.name) → part ≠ [] →
      Key.ofNames part seed ≠ Key.identity := by
    intro part hpart hne
    obtain ⟨components, hcomponents, rfl⟩ := List.sublist_map_iff.mp hpart
    exact hfree components hcomponents (by simpa using hne)
  have hnodup := Key.nodup_ofNames_sublists' hnames
  rw [List.sublists'_map, List.map_map] at hnodup
  have hcount := List.nodup_iff_count_le_one.mp hnodup key
  have hperm := ((List.sublists_perm_sublists' row).map fun part =>
    Key.ofNames (part.map Component.name) seed).count_eq key
  calc row.multiplicity seed key
      ≤ row.sublists.countP fun part => Key.ofNames (part.map Component.name) seed = key := by
        refine List.countP_mono_left fun part _ hpart => ?_
        simp only [decide_eq_true_eq] at hpart ⊢
        exact hpart.2
    _ = (row.sublists.map fun part => Key.ofNames (part.map Component.name) seed).count key := by
        rw [List.count, List.countP_map]
        exact List.countP_congr fun part _ => by simp
    _ ≤ 1 := hperm ▸ hcount

/-- Among independent names a row of distinct names is listed under the key of the names that its
components have, once, and under that of no others. Then a key stands for a set of names. -/
theorem multiplicity_ofNames {row : Row S} {names : List String} {seed : UInt32}
    (hrow : (row.map Component.name).Nodup) (hnames : names.Nodup) (hne : names ≠ [])
    (hfree : Key.Independent (names ++ row.map Component.name) seed) :
    row.multiplicity seed (Key.ofNames names seed) =
      if names ⊆ row.map Component.name then 1 else 0 := by
  have hpartNames {part : Row S} (hpart : part.Sublist row) :
      (part.map Component.name).Nodup ∧
        part.map Component.name ⊆ names ++ row.map Component.name := by
    have hsublist := hpart.map Component.name
    exact ⟨hrow.sublist hsublist, List.subset_append_of_subset_right names hsublist.subset⟩
  have hle := multiplicity_le_one (fun part hpart hpartNe =>
    hfree _ (hpartNames hpart).1 (hpartNames hpart).2 (by simpa using hpartNe))
    (Key.ofNames names seed)
  split
  case isTrue howned =>
    have hpos := multiplicity_pos_of_names hnames hne howned seed
    omega
  case isFalse hlacks =>
    have hzero : ¬0 < row.multiplicity seed (Key.ofNames names seed) := by
      intro hpos
      obtain ⟨part, hpart, _, hkey⟩ := multiplicity_pos_iff.mp hpos
      obtain ⟨hnodup, hsub⟩ := hpartNames hpart
      have hperm := hfree.perm_of_ofNames_eq hnodup hnames hsub (List.subset_append_left _ _) hkey
      exact hlacks (List.Subset.trans hperm.symm.subset (hpart.map Component.name).subset)
    omega

end Row

end EntityWorld
