import EntityWorld.Proofs.Row
import EntityWorld.Proofs.Utf8
import EntityWorld.Store.Basic
import EntityWorld.Zoo

namespace EntityWorld

variable {S : Schema}

namespace Row

/-- A type occurs more than once among components. -/
def Repeated (components : List (Component S)) (type : TypeId) : Prop :=
  2 ≤ (components.map Component.type).count type

/-- A type comes first among those that occur more than once. -/
structure FirstRepeated (components : List (Component S)) (type : TypeId) : Prop where
  repeated : Repeated components type
  first : ∀ other, Repeated components other → (compare type other).isLE

/-- Some type occurs more than once exactly if the types are not distinct. -/
theorem exists_repeated_iff {components : List (Component S)} :
    (∃ type, Repeated components type) ↔ ¬(components.map Component.type).Nodup := by
  simp [List.nodup_iff_count_le_one, Repeated, Nat.lt_iff_add_one_le]

/-- Which type is the first to occur more than once does not depend on the order of the
components. -/
theorem FirstRepeated.perm {components others : List (Component S)} {type : TypeId}
    (hfirst : FirstRepeated components type) (hperm : components.Perm others) :
    FirstRepeated others type := by
  have hrepeated (type : TypeId) : Repeated others type ↔ Repeated components type := by
    rw [Repeated, Repeated, (hperm.map Component.type).count_eq]
  exact ⟨(hrepeated type).mpr hfirst.repeated,
    fun other hother => hfirst.first other ((hrepeated other).mp hother)⟩

theorem FirstRepeated.unique {components : List (Component S)} {type other : TypeId}
    (htype : FirstRepeated components type) (hother : FirstRepeated components other) :
    type = other := by
  have hle := htype.first other hother.repeated
  have hge := hother.first type htype.repeated
  exact Std.LawfulEqCmp.eq_of_compare (Std.OrientedCmp.isLE_antisymm hle hge)

/-- In a row whose types ascend weakly, the first type that stands next to itself comes first among
those that occur more than once. -/
theorem firstRepeated_of_duplicate? {row : Row S} {type : TypeId}
    (hsorted : row.Pairwise fun a b => (compare a.type b.type).isLE)
    (hduplicate : row.duplicate? = some type) : FirstRepeated row type := by
  fun_induction duplicate? row with
  | case1 first second row heq =>
    obtain rfl := Option.some.inj hduplicate
    refine ⟨?_, fun other hother => ?_⟩
    · simp [Repeated, heq]
    · have hmem : other ∈ (first :: second :: row).map Component.type :=
        List.count_pos_iff.mp (Nat.lt_of_lt_of_le Nat.two_pos hother)
      rcases List.mem_cons.mp hmem with rfl | hlater
      · exact Std.ReflCmp.isLE_rfl
      · obtain ⟨component, hcomponent, rfl⟩ := List.mem_map.mp hlater
        exact (List.pairwise_cons.mp hsorted).1 component hcomponent
  | case2 first second row hne ih =>
    obtain ⟨hle, hrest⟩ := List.pairwise_cons.mp hsorted
    obtain ⟨hrepeated, hleast⟩ := ih hrest hduplicate
    -- The first component is the only one of its type: all that follow are of larger types.
    have halone : first.type ∉ (second :: row).map Component.type := by
      intro hmem
      obtain ⟨component, hcomponent, heq⟩ := List.mem_map.mp hmem
      have hsecond : (compare second.type component.type).isLE := by
        rcases List.mem_cons.mp hcomponent with rfl | hlater
        · exact Std.ReflCmp.isLE_rfl
        · exact (List.pairwise_cons.mp hrest).1 component hlater
      refine hne (Std.LawfulEqCmp.eq_of_compare (Std.OrientedCmp.isLE_antisymm
        (hle second List.mem_cons_self) (heq ▸ hsecond)))
    have hsame {other : TypeId} (hother : Repeated (first :: second :: row) other) :
        Repeated (second :: row) other := by
      rw [Repeated, List.map_cons] at hother
      by_cases heq : first.type = other
      · rw [← heq, List.count_cons_self, List.count_eq_zero_of_not_mem halone] at hother
        omega
      · rwa [List.count_cons_of_ne heq] at hother
    refine ⟨?_, fun other hother => hleast other (hsame hother)⟩
    exact Nat.le_trans hrepeated (List.count_le_count_cons ..)
  | case3 row hshort => cases hduplicate

/-- Components make no row exactly if a type occurs more than once, and what is reported is the
first such type. No other error can come of it. -/
theorem ofList_eq_error_iff {components : List (Component S)} {error : Error} :
    ofList components = .error error ↔
      ∃ type, FirstRepeated components type ∧ error = .duplicateComponent type.name := by
  let row : Row S := sortBy (fun a b => (compare a.type b.type).isLE) components
  have hperm : row.Perm components := sortBy_perm components
  have hsorted := pairwise_sortBy_type components
  simp only [ofList]
  cases hduplicate : duplicate? row with
  | none =>
    have hnodup := (ascending_of_duplicate?_eq_none hsorted hduplicate).nodup
    rw [types, (hperm.map Component.type).nodup_iff] at hnodup
    refine iff_of_false (by simp) ?_
    rintro ⟨type, hfirst, _⟩
    exact exists_repeated_iff.mp ⟨type, hfirst.repeated⟩ hnodup
  | some type =>
    have hfirst := (firstRepeated_of_duplicate? hsorted hduplicate).perm hperm
    constructor
    · intro hfailed
      exact ⟨type, hfirst, (Except.error.inj hfailed).symm⟩
    · rintro ⟨other, hother, rfl⟩
      rw [hfirst.unique hother]

/-- Where types occur more than once, one of them comes first. It is found by making the row. -/
theorem exists_firstRepeated {components : List (Component S)}
    (hrepeated : ∃ type, Repeated components type) : ∃ type, FirstRepeated components type := by
  rcases ofList_cases components with ⟨row, _, hnodup⟩ | ⟨name, hfailed, _⟩
  · exact absurd hnodup (exists_repeated_iff.mp hrepeated)
  · obtain ⟨type, hfirst, _⟩ := ofList_eq_error_iff.mp hfailed
    exact ⟨type, hfirst⟩

/-- Components in any order make the same row, or the same type is reported. Both outcomes are
determined without regard to the order. -/
theorem ofList_perm {components others : List (Component S)} (hperm : components.Perm others) :
    ofList others = ofList components := by
  cases hrow : ofList components with
  | ok row =>
    obtain ⟨hascending, hsame⟩ := ofList_eq_ok hrow
    have hnodup := (((hsame.trans hperm).map Component.type).nodup_iff.mp hascending.nodup)
    obtain ⟨other, hother⟩ := exists_ofList_eq_ok hnodup
    obtain ⟨hotherAscending, hotherSame⟩ := ofList_eq_ok hother
    have heq := hotherAscending.eq_of_perm hascending
      (hotherSame.trans (hperm.symm.trans hsame.symm))
    rw [hother, heq]
  | error error =>
    obtain ⟨type, hfirst, rfl⟩ := ofList_eq_error_iff.mp hrow
    exact ofList_eq_error_iff.mpr ⟨type, hfirst.perm hperm, rfl⟩

/-- A name that stands for a type that occurs more than once, and whose bytes come before those of
the names of all others that do. -/
structure LeastRepeatedName (components : List (Component S)) (name : String) : Prop where
  repeated : ∃ type, Repeated components type ∧ type.name = name
  least : ∀ type, Repeated components type →
    name.toUTF8.data.toList ≤ type.name.toUTF8.data.toList

/-- Types are ordered by their names before anything else, so the first type has the least name. -/
theorem FirstRepeated.leastRepeatedName {components : List (Component S)} {type : TypeId}
    (hfirst : FirstRepeated components type) : LeastRepeatedName components type.name := by
  refine ⟨⟨type, hfirst.repeated, rfl⟩, fun other hother => toUTF8_le_iff.mpr ?_⟩
  have hnames := Ordering.isLE_left_of_isLE_then (hfirst.first other hother)
  exact (isLE_compareOfLessAndEq String.le_antisymm String.not_le String.le_total).mp hnames

/-- There is only one least name, since names with the same bytes are the same. -/
theorem LeastRepeatedName.unique {components : List (Component S)} {name other : String}
    (hname : LeastRepeatedName components name) (hother : LeastRepeatedName components other) :
    name = other := by
  obtain ⟨type, htype, rfl⟩ := hname.repeated
  obtain ⟨second, hsecond, rfl⟩ := hother.repeated
  exact String.le_antisymm (toUTF8_le_iff.mp (hname.least second hsecond))
    (toUTF8_le_iff.mp (hother.least type htype))

/-- Components make no row exactly if a type occurs more than once, and the name that is reported is
the first of the names of such types, byte by byte. -/
theorem ofList_eq_duplicate_iff {components : List (Component S)} {name : String} :
    ofList components = .error (.duplicateComponent name) ↔ LeastRepeatedName components name := by
  rw [ofList_eq_error_iff]
  constructor
  · rintro ⟨type, hfirst, heq⟩
    rw [Error.duplicateComponent.inj heq]
    exact hfirst.leastRepeatedName
  · intro hname
    obtain ⟨repeated, hrepeated, _⟩ := hname.repeated
    obtain ⟨type, hfirst⟩ := exists_firstRepeated ⟨repeated, hrepeated⟩
    exact ⟨type, hfirst, congrArg _ (hname.unique hfirst.leastRepeatedName)⟩

end Row

namespace Store

/-- Creation gives the same answer and leaves the same store for components in any order: it uses
nothing of them but the row that they make. -/
theorem create_perm (store : Store S) {components others : List (Component S)}
    (hperm : components.Perm others) : store.create others = store.create components := by
  rw [create, create, Row.ofList_perm hperm]

theorem place_perm (store : Store S) {components others : List (Component S)}
    (hperm : components.Perm others) (entity : EntityId) :
    store.place others entity = store.place components entity := by
  rw [place, place, Row.ofList_perm hperm]

/-- Creation reports a duplicate by the least of the names that occur more than once, if there are
numbers left. -/
theorem create_eq_duplicate_iff {store after : Store S} {components : List (Component S)}
    {name : String} :
    store.create components = .error (.duplicateComponent name) after ↔
      store.nextId ≠ lastEntity ∧ Row.LeastRepeatedName components name ∧ after = store := by
  rw [← Row.ofList_eq_duplicate_iff, create]
  by_cases hlast : store.nextId = lastEntity
  · rw [if_pos hlast]
    exact iff_of_false (fun hfailed => by cases hfailed) fun hfailed => hfailed.1 hlast
  · rw [if_neg hlast]
    cases Row.ofList components with
    | ok row => simp
    | error error =>
      constructor
      · intro hfailed
        cases hfailed
        exact ⟨hlast, rfl, rfl⟩
      · rintro ⟨_, hname, rfl⟩
        rw [Except.error.inj hname]

/-- Placing reports a duplicate by the least of the names that occur more than once. -/
theorem place_eq_duplicate_iff {store after : Store S} {components : List (Component S)}
    {entity : EntityId} {name : String} :
    store.place components entity = .error (.duplicateComponent name) after ↔
      Row.LeastRepeatedName components name ∧ after = store := by
  rw [← Row.ofList_eq_duplicate_iff, place]
  cases Row.ofList components with
  | ok row => simp
  | error error =>
    constructor
    · intro hfailed
      cases hfailed
      exact ⟨rfl, rfl⟩
    · rintro ⟨hname, rfl⟩
      rw [Except.error.inj hname]

/-- The same components in another order give the same answer, and the same store: the same row, and
the entity behind the same others in every list. It fails for a duplicate exactly if a type occurs
more than once, and then, in any order, the name that is reported is the least of the names of such
types, byte by byte. -/
theorem create_place_of_perm {components others : List (Component S)}
    (hperm : components.Perm others) (store : Store S) (entity : EntityId) :
    store.create others = store.create components ∧
    store.place others entity = store.place components entity ∧
    ((∃ name after, store.create components = .error (.duplicateComponent name) after) ↔
      store.nextId ≠ lastEntity ∧ ∃ type, 2 ≤ (components.map Component.type).count type) ∧
    ((∃ name after, store.place components entity = .error (.duplicateComponent name) after) ↔
      ∃ type, 2 ≤ (components.map Component.type).count type) ∧
    ∀ name after, store.create components = .error (.duplicateComponent name) after ∨
        store.place components entity = .error (.duplicateComponent name) after →
      after = store ∧ Row.LeastRepeatedName components name := by
  have hleast : (∃ name, Row.LeastRepeatedName components name) ↔
      ∃ type, Row.Repeated components type := by
    constructor
    · rintro ⟨name, ⟨type, hrepeated, _⟩, _⟩
      exact ⟨type, hrepeated⟩
    · intro hrepeated
      obtain ⟨type, hfirst⟩ := Row.exists_firstRepeated hrepeated
      exact ⟨type.name, hfirst.leastRepeatedName⟩
  refine ⟨store.create_perm hperm, store.place_perm hperm entity, ?_, ?_, ?_⟩
  · simp only [create_eq_duplicate_iff, exists_and_left, exists_eq, and_true, hleast]
    rfl
  · simp only [place_eq_duplicate_iff, exists_and_left, exists_eq, and_true, hleast]
    rfl
  · rintro name after (hcreate | hplace)
    · obtain ⟨_, hname, hafter⟩ := create_eq_duplicate_iff.mp hcreate
      exact ⟨hafter, hname⟩
    · obtain ⟨hname, hafter⟩ := place_eq_duplicate_iff.mp hplace
      exact ⟨hafter, hname⟩

/-- Two types that both occur twice are reported by the lesser name, and components of distinct
types make the same store in both orders. -/
theorem create_place_of_perm_zoo :
    let component (name : String) : Component Zoo.schema := .initial { name }
    let twice := [component "zoo::alpha", component "zoo::B", component "zoo::B",
      component "zoo::alpha"]
    let swapped := [component "zoo::B", component "zoo::alpha", component "zoo::alpha",
      component "zoo::B"]
    twice.Perm swapped ∧
    (empty 7).create swapped = .error (.duplicateComponent "zoo::B") (empty 7) ∧
    Row.LeastRepeatedName twice "zoo::B" ∧
    (empty 7).create [component "zoo::alpha", component "zoo::B"] =
      (empty 7).create [component "zoo::B", component "zoo::alpha"] := by
  intro component twice swapped
  have hperm : twice.Perm swapped := (List.Perm.swap ..).trans
    (((List.Perm.swap ..).cons _).cons _)
  obtain ⟨hcreate, _, _, _, hleast⟩ := create_place_of_perm hperm (empty 7) 0
  have hduplicate : Row.duplicate? (sortBy (fun a b => (compare a.type b.type).isLE) twice) =
      some { name := "zoo::B" } := by decide
  have hrow : Row.ofList twice = .error (.duplicateComponent "zoo::B") := by
    simp only [Row.ofList]
    rw [hduplicate]
  have hfailed : (empty 7).create twice = .error (.duplicateComponent "zoo::B") (empty 7) :=
    create_eq_duplicate_iff.mpr ⟨by decide, Row.ofList_eq_duplicate_iff.mp hrow, rfl⟩
  obtain ⟨hpair, _⟩ := create_place_of_perm
    (List.Perm.swap (component "zoo::alpha") (component "zoo::B") []) (empty 7) 0
  exact ⟨hperm, hcreate.trans hfailed, (hleast _ _ (.inl hfailed)).2, hpair⟩

end Store

end EntityWorld
