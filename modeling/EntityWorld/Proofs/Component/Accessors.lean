import EntityWorld.Proofs.Overwrite
import EntityWorld.Proofs.Store.Deeds
import EntityWorld.Zoo

namespace EntityWorld

variable {S : Schema}

namespace Record

variable {given : String → Option Value} {fields : List Field} {before after other : Record fields}

/-- A field for which no value is given holds what it held. -/
theorem Overwritten.get?_of_none (hafter : Overwritten given fields before after) {name : String}
    (hnone : given name = none) : after.get? fields name = before.get? fields name := by
  induction fields with
  | nil => rfl
  | cons field fields ih =>
    obtain ⟨old, before⟩ := before
    obtain ⟨new, after⟩ := after
    obtain ⟨htakes, hafter⟩ := hafter
    rw [get?_cons, get?_cons, ih hafter]
    by_cases hname : field.name = name
    · subst hname
      rw [hnone] at htakes
      obtain rfl : new = old := htakes
      rfl
    · rw [if_neg hname, if_neg hname]

/-- A field for which a value is given holds what is read from it. It shows that entry written as a
value again, which need not be the value that was given. -/
theorem Overwritten.get?_of_some (hnodup : (fields.map Field.name).Nodup)
    (hafter : Overwritten given fields before after) {found : Field} (hmem : found ∈ fields)
    {value : Value} (hsome : given found.name = some value) :
    ∃ entry, found.type.decode value = .ok entry ∧
      after.get? fields found.name = some (found.type.encode entry) := by
  induction fields with
  | nil => cases hmem
  | cons field fields ih =>
    obtain ⟨old, before⟩ := before
    obtain ⟨new, after⟩ := after
    obtain ⟨htakes, hafter⟩ := hafter
    rw [List.map_cons, List.nodup_cons] at hnodup
    rw [get?_cons]
    rcases List.mem_cons.mp hmem with rfl | hlater
    · rw [hsome] at htakes
      exact ⟨new, htakes, if_pos rfl⟩
    · have hname : field.name ≠ found.name := fun heq =>
        hnodup.1 (heq ▸ List.mem_map_of_mem hlater)
      rw [if_neg hname]
      exact ih hnodup.2 hafter hlater

/-- The values that are given decide what the fields hold. Fields without a value hold what they
held before, and there was only one before. -/
theorem Overwritten.unique (hafter : Overwritten given fields before after)
    (hother : Overwritten given fields before other) : after = other := by
  induction fields with
  | nil => rfl
  | cons field fields ih =>
    obtain ⟨old, before⟩ := before
    obtain ⟨new, after⟩ := after
    obtain ⟨second, other⟩ := other
    obtain ⟨hnew, hafter⟩ := hafter
    obtain ⟨hsecond, hother⟩ := hother
    obtain rfl := ih hafter hother
    have heq : new = second := by
      unfold Field.Takes at hnew hsecond
      cases hgiven : given field.name with
      | none =>
        rw [hgiven] at hnew hsecond
        exact hnew.trans hsecond.symm
      | some value =>
        rw [hgiven] at hnew hsecond
        exact Except.ok.inj (hnew.symm.trans hsecond)
    rw [heq]

end Record

/-- There is only one thing at fault with a value for a field: the field is missing, or the value
does not fit it in one particular way. -/
theorem Schema.Fault.unique {type : TypeId} {field : String} {value : Value}
    {error other : FieldError} (hfault : S.Fault type field value error)
    (hother : S.Fault type field value other) : error = other := by
  cases hfault with
  | unknown missing =>
    cases hother with
    | unknown => rfl
    | unreadable mem name => exact absurd name (missing _ mem)
  | unreadable mem name unread =>
    cases hother with
    | unknown missing => exact absurd name (missing _ mem)
    | unreadable second sameName failed =>
      obtain rfl := List.inj_on_of_nodup_map (S.distinct type) mem second (name.trans sameName.symm)
      cases unread.symm.trans failed
      rfl

namespace Component

/-- The names of the fields of a component, in the order in which they are declared. -/
def fieldNames (component : Component S) : List String :=
  (S.fields component.type).map Field.name

theorem isSome_get?_iff (component : Component S) (field : String) :
    (component.get? field).isSome = true ↔ field ∈ component.fieldNames := by
  rw [← not_iff_not, Bool.not_eq_true, Option.isSome_eq_false_iff, Option.isNone_iff_eq_none]
  exact component.record.get?_eq_none_iff field

/-- A component after a field was set: the field holds what is read from the value, and all others
hold what they held, down to what they do not show. -/
structure Sets (before : Component S) (field : String) (value : Value) (after : Component S) :
    Prop where
  type_eq : after.type = before.type
  shows : ∃ found ∈ S.fields before.type, found.name = field ∧
    ∃ entry, found.type.decode value = .ok entry ∧
      after.get? field = some (found.type.encode entry)
  others : ∀ other, other ≠ field → after.get? other = before.get? other
  overwritten : before.Overwritten (fun name => if name = field then some value else none) after

/-- Overwriting the field of one name with a value that fits is setting that field. -/
theorem Overwritten.sets {before after : Component S} {field : String} {value : Value}
    (hafter : before.Overwritten (fun name => if name = field then some value else none) after)
    (hfits : S.Fits before.type field value) : before.Sets field value after where
  type_eq := hafter.type_eq
  shows := by
    obtain ⟨found, hmem, rfl, _⟩ := hfits
    obtain ⟨record, rfl, hrecord⟩ := hafter
    obtain ⟨entry, hread, hget⟩ :=
      hrecord.get?_of_some (S.distinct before.type) hmem (if_pos rfl)
    exact ⟨found, hmem, rfl, entry, hread, hget⟩
  others other hother := by
    obtain ⟨record, rfl, hrecord⟩ := hafter
    exact hrecord.get?_of_none (if_neg hother)
  overwritten := hafter

/-- Setting succeeds only with a value that fits, and then that field alone changes. Success and
failure are told apart by the value and the type. -/
theorem set_eq_ok {component after : Component S} {field : String} {value : Value}
    (hset : component.set field value = .ok after) :
    S.Fits component.type field value ∧ component.Sets field value after := by
  rcases component.set_cases field value with ⟨_, hcase, hfits, hafter⟩ | ⟨_, hcase, _⟩
  all_goals cases hset.symm.trans hcase
  exact ⟨hfits, hafter.sets hfits⟩

/-- A field can be set to exactly the values that fit it. Nothing that it held before matters. -/
theorem exists_set_eq_ok_iff {component : Component S} {field : String} {value : Value} :
    (∃ after, component.set field value = .ok after) ↔ S.Fits component.type field value := by
  refine ⟨fun ⟨_, hset⟩ => (set_eq_ok hset).1, fun hfits => ?_⟩
  rcases component.set_cases field value with ⟨after, hset, _⟩ | ⟨_, _, hfault⟩
  · exact ⟨after, hset⟩
  · exact absurd hfault hfits.not_fault

/-- Setting fails with what is at fault, and with nothing else. There is only one thing at fault, so
the error is determined. -/
theorem set_eq_error_iff {component : Component S} {field : String} {value : Value}
    {error : FieldError} :
    component.set field value = .error error ↔ S.Fault component.type field value error := by
  rcases component.set_cases field value with ⟨_, hset, hfits, _⟩ | ⟨found, hset, hfault⟩
  · rw [hset]
    exact iff_of_false nofun hfits.not_fault
  · rw [hset, Except.error.injEq]
    exact ⟨fun heq => heq ▸ hfault, hfault.unique⟩

theorem Overwritten.unique {given : String → Option Value} {before after other : Component S}
    (hafter : before.Overwritten given after) (hother : before.Overwritten given other) :
    after = other := by
  obtain ⟨record, rfl, hrecord⟩ := hafter
  obtain ⟨second, rfl, hsecond⟩ := hother
  rw [hrecord.unique hsecond]

/-- Setting two fields leaves them set, in whatever order. Both orders are overwriting with the same
two values, and so end in the same component. -/
theorem Sets.overwritten_pair {before middle last : Component S} {field other : String}
    {value second : Value} (hne : field ≠ other) (hfirst : before.Sets field value middle)
    (hlast : middle.Sets other second last) :
    before.Overwritten (fun name =>
      if name = field then some value else if name = other then some second else none) last := by
  refine hfirst.overwritten.trans hlast.overwritten (fun name => ?_) fun name => ?_
  · by_cases hname : name = field <;> simp [hname]
  · by_cases hname : name = field
    · exact .inr (if_neg (hname ▸ hne))
    · exact .inl (if_neg hname)

/-- Fields of different names can be set in either order, with the same result: in both orders the
same two fields are overwritten with the same values. -/
theorem exists_set_comm {component first second : Component S} {field other : String}
    {value otherValue : Value} (hne : field ≠ other)
    (hfirst : component.set field value = .ok first)
    (hsecond : component.set other otherValue = .ok second) :
    ∃ last, first.set other otherValue = .ok last ∧ second.set field value = .ok last := by
  obtain ⟨hfits, hsets⟩ := set_eq_ok hfirst
  obtain ⟨hotherFits, hotherSets⟩ := set_eq_ok hsecond
  obtain ⟨last, hlast⟩ := exists_set_eq_ok_iff.mpr (hsets.type_eq ▸ hotherFits)
  obtain ⟨last', hlast'⟩ := exists_set_eq_ok_iff.mpr (hotherSets.type_eq ▸ hfits)
  have hthere := hsets.overwritten_pair hne (set_eq_ok hlast).2
  have hback := hotherSets.overwritten_pair hne.symm (set_eq_ok hlast').2
  have hsame : (fun name => if name = other then some otherValue
      else if name = field then some value else none) =
      fun name => if name = field then some value
        else if name = other then some otherValue else none := by
    funext name
    by_cases hname : name = field
    · simp [hname, hne]
    · simp [hname]
  rw [hsame] at hback
  exact ⟨last, hlast, hthere.unique hback ▸ hlast'⟩

/-- What the fields of some names hold, as far as there are such fields. -/
def read (component : Component S) (names : List String) : List (String × Value) :=
  names.filterMap fun name => (component.get? name).map fun value => (name, value)

theorem mem_read_iff {component : Component S} {names : List String} {entry : String × Value} :
    entry ∈ component.read names ↔
      entry.1 ∈ names ∧ component.get? entry.1 = some entry.2 := by
  obtain ⟨name, value⟩ := entry
  simp [read]

/-- Every field can be read, so reading leaves out none of the names. -/
theorem map_fst_read {component : Component S} {names : List String}
    (hnames : names ⊆ component.fieldNames) : (component.read names).map Prod.fst = names := by
  induction names with
  | nil => rfl
  | cons name names ih =>
    obtain ⟨hname, hrest⟩ := List.cons_subset.mp hnames
    obtain ⟨value, hvalue⟩ := Option.isSome_iff_exists.mp ((isSome_get?_iff _ _).mpr hname)
    have hread : component.read (name :: names) = (name, value) :: component.read names := by
      simp [read, hvalue]
    rw [hread, List.map_cons, ih hrest]

/-- What all fields of a component hold, read in any order, makes up the same component out of any
other of the type. -/
theorem exists_setAll_read {source target : Component S} (htype : source.type = target.type)
    {names : List String} (hnames : names.Perm source.fieldNames) :
    ∃ after, target.setAll (source.read names) = .ok after ∧ after.type = source.type ∧
      after.snapshot = source.snapshot := by
  refine exists_setAll_of_all htype (fun entry hentry => (mem_read_iff.mp hentry).2) ?_
  intro name value hvalue
  have hname : name ∈ names := by
    rw [hnames.mem_iff, ← isSome_get?_iff, hvalue]
    rfl
  exact List.mem_map.mpr ⟨(name, value), mem_read_iff.mpr ⟨hname, hvalue⟩, rfl⟩

end Component

/-- Reading and setting fields is lawful. Exactly the fields of the type can be read. Exactly values
that can be read as what a field holds can be set there, which then holds that and shows it written
as a value again, while all other fields hold what they held; else the field or the value is at
fault, and a component that is changed in place stays as it was. Two fields can be set in either
order. What all fields hold, set in any order in any other component of the type, makes it one of
which the same is taken down. -/
theorem Component.accessors_lawful (component : Component S) :
    (∀ field, (component.get? field).isSome = true ↔ field ∈ component.fieldNames) ∧
    (∀ (field : String) (value : Value),
      ((∃ after, component.set field value = .ok after) ↔
        ∃ found ∈ S.fields component.type, found.name = field ∧
          ∃ entry, found.type.decode value = .ok entry) ∧
      (∀ after, component.set field value = .ok after → component.Sets field value after) ∧
      ∀ error, component.set field value = .error error ↔
        S.Fault component.type field value error) ∧
    (∀ (store : Store S) (entity : EntityId),
      store.get entity component.type = .ok component.record →
        ∀ (field : String) (value : Value),
          (∀ error, component.set field value = .error error →
            store.setField entity component.type field value = .error (.field error) store) ∧
          ∀ record, component.set field value = .ok ⟨component.type, record⟩ →
            ∃ after, store.setField entity component.type field value = .ok record after ∧
              store.Stores entity ⟨component.type, record⟩ after) ∧
    (∀ (field other : String) (value otherValue : Value) (first second : Component S),
      field ≠ other → component.set field value = .ok first →
        component.set other otherValue = .ok second →
          ∃ last, first.set other otherValue = .ok last ∧ second.set field value = .ok last) ∧
    ∀ (target : Component S) (names : List String), component.type = target.type →
      names.Perm component.fieldNames →
        (component.read names).map Prod.fst = names ∧
        ∃ after, target.setAll (component.read names) = .ok after ∧
          after.type = component.type ∧ after.snapshot = component.snapshot :=
  ⟨component.isSome_get?_iff,
    fun _ _ => ⟨exists_set_eq_ok_iff, fun _ hset => (set_eq_ok hset).2, fun _ => set_eq_error_iff⟩,
    fun _ _ => Store.setField_cases,
    fun _ _ _ _ _ _ => exists_set_comm,
    fun _ _ htype hnames => ⟨map_fst_read hnames.subset, exists_setAll_read htype hnames⟩⟩

/-- A component with lists and optional values is made up out of any other of its type, the last
field first. -/
theorem Component.accessors_lawful_nested :
    let nested : Component Zoo.schema := .initial { name := "zoo::Opt" }
    let names := ["any", "grid", "items", "maybe"]
    (nested.read names).map Prod.fst = names ∧
      ∀ target : Component Zoo.schema, nested.type = target.type →
        ∃ after, target.setAll (nested.read names) = .ok after ∧
          after.snapshot = nested.snapshot := by
  intro nested names
  have hnames : names.Perm nested.fieldNames := by decide
  obtain ⟨-, -, -, -, hmadeUp⟩ := nested.accessors_lawful
  refine ⟨(hmadeUp nested names rfl hnames).1, fun target htype => ?_⟩
  obtain ⟨_, after, hset, _, hsame⟩ := hmadeUp target names htype hnames
  exact ⟨after, hset, hsame⟩

end EntityWorld
