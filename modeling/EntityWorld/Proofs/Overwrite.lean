import EntityWorld.Proofs.Component

namespace EntityWorld

variable {S : Schema}

/-- A type has a field of the name, and the value can be read as what that field holds. -/
def Schema.Fits (S : Schema) (type : TypeId) (field : String) (value : Value) : Prop :=
  ∃ found ∈ S.fields type, found.name = field ∧ ∃ entry, found.type.decode value = .ok entry

/-- What is at fault with a value for a field: there is no such field, or the value cannot be read
as what the field holds. -/
inductive Schema.Fault (S : Schema) (type : TypeId) (field : String) (value : Value) :
    FieldError → Prop
  | unknown (missing : ∀ found ∈ S.fields type, found.name ≠ field) :
      Fault S type field value (.unknownField type.name field)
  | unreadable {found : Field} {cause : FieldError} (mem : found ∈ S.fields type)
      (name : found.name = field) (unread : found.type.decode value = .error cause) :
      Fault S type field value (.invalid type.name field cause)

/-- What a field holds after it was set to a value, or after it was left alone. -/
def Field.Takes (field : Field) (given : Option Value) (old new : field.type.Carrier) : Prop :=
  match given with
  | none => new = old
  | some value => field.type.decode value = .ok new

namespace Record

/-- A record after the fields for which values are given were set to them, and no others. No two
fields of a type share a name, so this can be said field by field. -/
def Overwritten (given : String → Option Value) :
    (fields : List Field) → Record fields → Record fields → Prop
  | [], _, _ => True
  | field :: fields, (old, before), (new, after) =>
    field.Takes (given field.name) old new ∧ Overwritten given fields before after

theorem Overwritten.of_none {given : String → Option Value} {fields : List Field}
    (hnone : ∀ found ∈ fields, given found.name = none) (record : Record fields) :
    Overwritten given fields record record := by
  induction fields with
  | nil => trivial
  | cons field fields ih =>
    obtain ⟨entry, record⟩ := record
    refine ⟨?_, ih (fun found hfound => hnone found (List.mem_cons_of_mem field hfound)) record⟩
    simp [Field.Takes, hnone]

/-- Setting one field and then others, none of which is that field again, is setting all of them at
once. -/
theorem Overwritten.trans {first later whole : String → Option Value} {fields : List Field}
    {before middle after : Record fields} (hfirst : Overwritten first fields before middle)
    (hlater : Overwritten later fields middle after)
    (hwhole : ∀ name, whole name = (first name).or (later name))
    (hapart : ∀ name, first name = none ∨ later name = none) :
    Overwritten whole fields before after := by
  induction fields with
  | nil => trivial
  | cons field fields ih =>
    obtain ⟨old, before⟩ := before
    obtain ⟨mid, middle⟩ := middle
    obtain ⟨new, after⟩ := after
    refine ⟨?_, ih hfirst.2 hlater.2⟩
    have hmid : field.Takes (first field.name) old mid := hfirst.1
    have hnew : field.Takes (later field.name) mid new := hlater.1
    rw [hwhole]
    rcases hapart field.name with hnone | hnone
    · rw [hnone] at hmid ⊢
      obtain rfl : mid = old := hmid
      exact hnew
    · rw [hnone] at hnew ⊢
      obtain rfl : new = mid := hnew
      rw [Option.or_none]
      exact hmid

theorem set?_eq_none_iff {fields : List Field} (record : Record fields) (name : String)
    (value : Value) :
    record.set? fields name value = none ↔ ∀ found ∈ fields, found.name ≠ name := by
  induction fields with
  | nil => simp [set?]
  | cons field fields ih =>
    obtain ⟨entry, record⟩ := record
    rw [set?_cons, List.forall_mem_cons, ← ih record]
    by_cases hname : field.name = name
    · simp [hname]
    · rw [if_neg hname]
      cases set? fields record name value with
      | none => exact iff_of_true rfl ⟨hname, rfl⟩
      | some result => exact iff_of_false nofun fun hnone => nomatch hnone.2

/-- A field that is there takes exactly the values that can be read as what it holds, and then no
other field changes. -/
theorem set?_of_mem {fields : List Field} (hnodup : (fields.map Field.name).Nodup) {found : Field}
    (hmem : found ∈ fields) (record : Record fields) (value : Value) :
    (∃ cause, found.type.decode value = .error cause ∧
      record.set? fields found.name value = some (.error cause)) ∨
    ∃ entry after, found.type.decode value = .ok entry ∧
      record.set? fields found.name value = some (.ok after) ∧
      Overwritten (fun name => if name = found.name then some value else none) fields record
        after := by
  induction fields with
  | nil => cases hmem
  | cons field fields ih =>
    obtain ⟨old, record⟩ := record
    rw [List.map_cons, List.nodup_cons] at hnodup
    rw [set?_cons]
    rcases List.mem_cons.mp hmem with rfl | hlater
    · rw [if_pos rfl]
      cases hread : found.type.decode value with
      | error cause => exact .inl ⟨cause, rfl, rfl⟩
      | ok entry =>
        refine .inr ⟨entry, (entry, record), rfl, rfl, ?_, .of_none (fun other hother => ?_) record⟩
        · simpa [Field.Takes] using hread
        · have hname : other.name ≠ found.name := fun heq =>
            hnodup.1 (heq ▸ List.mem_map_of_mem hother)
          simp [hname]
    · have hname : field.name ≠ found.name := fun heq =>
        hnodup.1 (heq ▸ List.mem_map_of_mem hlater)
      rw [if_neg hname]
      rcases ih hnodup.2 hlater record with
        ⟨cause, hread, hset⟩ | ⟨entry, after, hread, hset, hafter⟩
      · exact .inl ⟨cause, hread, by rw [hset]; rfl⟩
      · refine .inr ⟨entry, (old, after), hread, by rw [hset]; rfl, ?_, hafter⟩
        simp [Field.Takes, hname]

end Record

namespace Component

/-- A component after the fields for which values are given were set to them, and no others. -/
def Overwritten (given : String → Option Value) (before after : Component S) : Prop :=
  ∃ record, after = { before with record } ∧ before.record.Overwritten given _ record

/-- Setting a field does one of three things, by whether there is such a field and whether the value
can be read as what it holds. In two of them it fails. -/
theorem set_cases (component : Component S) (field : String) (value : Value) :
    (∃ after, component.set field value = .ok after ∧ S.Fits component.type field value ∧
      component.Overwritten (fun name => if name = field then some value else none) after) ∨
    ∃ error, component.set field value = .error error ∧
      S.Fault component.type field value error := by
  unfold set Schema.setField
  by_cases hmissing : ∀ found ∈ S.fields component.type, found.name ≠ field
  · rw [(component.record.set?_eq_none_iff field value).mpr hmissing]
    exact .inr ⟨_, rfl, .unknown hmissing⟩
  · push Not at hmissing
    obtain ⟨found, hmem, rfl⟩ := hmissing
    rcases Record.set?_of_mem (S.distinct component.type) hmem component.record value with
      ⟨cause, hread, hset⟩ | ⟨entry, after, hread, hset, hafter⟩
    · rw [hset]
      exact .inr ⟨_, rfl, .unreadable hmem rfl hread⟩
    · rw [hset]
      exact .inl ⟨_, rfl, ⟨found, hmem, rfl, entry, hread⟩, after, rfl, hafter⟩

end Component

namespace Schema

/-- A value that fits a field is not at fault, so success and failure exclude each other. -/
theorem Fits.not_fault {type : TypeId} {field : String} {value : Value} {error : FieldError}
    (hfits : S.Fits type field value) : ¬S.Fault type field value error := by
  obtain ⟨found, hmem, rfl, entry, hread⟩ := hfits
  intro hfault
  cases hfault with
  | unknown missing => exact missing found hmem rfl
  | unreadable other name unread =>
    obtain rfl := List.inj_on_of_nodup_map (S.distinct type) other hmem name
    cases hread.symm.trans unread

end Schema

namespace Component

theorem Overwritten.refl (component : Component S) :
    component.Overwritten (fun _ => none) component :=
  ⟨component.record, rfl, .of_none (fun _ _ => rfl) _⟩

theorem Overwritten.type_eq {given : String → Option Value} {before after : Component S}
    (hafter : before.Overwritten given after) : after.type = before.type := by
  obtain ⟨record, rfl, _⟩ := hafter
  rfl

/-- Overwriting a component twice with values for different fields is overwriting it once with all
of them. -/
theorem Overwritten.trans {first later whole : String → Option Value}
    {before middle after : Component S} (hfirst : before.Overwritten first middle)
    (hlater : middle.Overwritten later after)
    (hwhole : ∀ name, whole name = (first name).or (later name))
    (hapart : ∀ name, first name = none ∨ later name = none) : before.Overwritten whole after := by
  obtain ⟨middle, rfl, hmiddle⟩ := hfirst
  obtain ⟨after, rfl, hafter⟩ := hlater
  exact ⟨after, rfl, hmiddle.trans hafter hwhole hapart⟩

/-- Fields of different names can be set one after another exactly if each of them takes its value,
and then they are the ones overwritten. Otherwise the first that does not take its value decides. -/
theorem setAll_cases {values : List (String × Value)} (hnodup : (values.map Prod.fst).Nodup)
    (component : Component S) :
    (∃ after, component.setAll values = .ok after ∧
      (∀ entry ∈ values, S.Fits component.type entry.1 entry.2) ∧
      component.Overwritten (values.lookup ·) after) ∨
    ∃ before entry later error, values = before ++ entry :: later ∧
      (∀ earlier ∈ before, S.Fits component.type earlier.1 earlier.2) ∧
      S.Fault component.type entry.1 entry.2 error ∧ component.setAll values = .error error := by
  induction values generalizing component with
  | nil => exact .inl ⟨component, rfl, by simp, .refl component⟩
  | cons entry values ih =>
    obtain ⟨field, value⟩ := entry
    rw [List.map_cons, List.nodup_cons] at hnodup
    rw [setAll_cons]
    rcases component.set_cases field value with
      ⟨middle, hset, hfits, hmiddle⟩ | ⟨error, hset, hfault⟩
    · rw [hset]
      rcases ih hnodup.2 middle with
        ⟨after, hall, hrest, hafter⟩ | ⟨before, other, later, error, rfl, hbefore, hfault, hall⟩
      · rw [hmiddle.type_eq] at hrest
        refine .inl ⟨after, hall, List.forall_mem_cons.mpr ⟨hfits, hrest⟩, ?_⟩
        refine hmiddle.trans hafter (fun name => ?_) fun name => ?_
        · by_cases hname : name = field
          · simp [hname]
          · rw [if_neg hname, Option.none_or, List.lookup_cons, beq_false_of_ne hname]
        · by_cases hname : name = field
          · refine .inr (List.lookup_eq_none_iff.mpr fun other hother => ?_)
            have hne : name ≠ other.1 := fun heq =>
              hnodup.1 (List.mem_map.mpr ⟨other, hother, heq.symm.trans hname⟩)
            simpa using hne
          · exact .inl (if_neg hname)
      · rw [hmiddle.type_eq] at hbefore hfault
        exact .inr ⟨(field, value) :: before, other, later, error, rfl,
          List.forall_mem_cons.mpr ⟨hfits, hbefore⟩, hfault, hall⟩
    · rw [hset]
      exact .inr ⟨[], (field, value), values, error, rfl, by simp, hfault, rfl⟩

end Component

end EntityWorld
