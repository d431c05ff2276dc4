import EntityWorld.Proofs.Field
import EntityWorld.Store.Snapshot

namespace EntityWorld

variable {S : Schema}

namespace Record

theorem get?_cons (field : Field) (fields : List Field) (entry : field.type.Carrier)
    (record : Record fields) (name : String) :
    get? (field :: fields) (entry, record) name =
      if field.name = name then some (field.type.encode entry) else get? fields record name := rfl

/-- The first field of a name is the one that is set, and a value that does not fit is reported
there. -/
theorem set?_cons (field : Field) (fields : List Field) (entry : field.type.Carrier)
    (record : Record fields) (name : String) (value : Value) :
    set? (field :: fields) (entry, record) name value =
      if field.name = name then some ((field.type.decode value).map fun entry => (entry, record))
      else (set? fields record name value).map fun result =>
        result.map fun record => (entry, record) := rfl

/-- A record has a value for exactly the names of its fields, whatever the fields hold. -/
theorem get?_eq_none_iff {fields : List Field} (record : Record fields) (name : String) :
    record.get? fields name = none ↔ name ∉ fields.map Field.name := by
  induction fields with
  | nil => simp [get?]
  | cons field fields ih =>
    obtain ⟨entry, record⟩ := record
    rw [get?_cons, List.map_cons, List.mem_cons, not_or, ← ih record]
    by_cases hname : field.name = name
    · simp [hname]
    · rw [if_neg hname]
      exact ⟨fun hnone => ⟨Ne.symm hname, hnone⟩, fun hnone => hnone.2⟩

/-- What a field of one record holds can be set in another, and only that field changes. A value
that was written by a field is read by its type again, so this never fails. -/
theorem exists_set? {fields : List Field} {source : Record fields} (target : Record fields)
    {name : String} {value : Value} (hsource : source.get? fields name = some value) :
    ∃ after, target.set? fields name value = some (.ok after) ∧
      ∀ other, after.get? fields other =
        if other = name then some value else target.get? fields other := by
  induction fields with
  | nil => cases hsource
  | cons field fields ih =>
    obtain ⟨given, source⟩ := source
    obtain ⟨entry, target⟩ := target
    rw [get?_cons] at hsource
    by_cases hfield : field.name = name
    · rw [if_pos hfield] at hsource
      obtain rfl := Option.some.inj hsource
      obtain ⟨read, hread, hsame⟩ := field.type.exists_decode_encode given
      refine ⟨(read, target), ?_, fun other => ?_⟩
      · rw [set?_cons, if_pos hfield, hread]
        rfl
      · rw [get?_cons, get?_cons, hfield, hsame]
        by_cases hother : other = name
        · rw [if_pos hother, if_pos hother.symm]
        · rw [if_neg hother, if_neg (Ne.symm hother), if_neg (Ne.symm hother)]
    · rw [if_neg hfield] at hsource
      obtain ⟨after, hset, hget⟩ := ih target hsource
      refine ⟨(entry, after), ?_, fun other => ?_⟩
      · rw [set?_cons, if_neg hfield, hset]
        rfl
      · rw [get?_cons, get?_cons, hget]
        by_cases hother : other = name
        · rw [if_pos hother, if_pos hother, hother, if_neg hfield]
        · rw [if_neg hother, if_neg hother]

/-- Adding all fields to a map makes each of them readable there by its name. The induction runs
over any map that the fields are added to. -/
theorem getElem?_foldl_insert {fields : List Field} (hnodup : (fields.map Field.name).Nodup)
    (record : Record fields) (map : ComponentSnapshot) (name : String) :
    ((record.toList fields).foldl (fun map entry => map.insert entry.1 entry.2) map)[name]? =
      (record.get? fields name).or map[name]? := by
  induction fields generalizing map with
  | nil => rfl
  | cons field fields ih =>
    obtain ⟨entry, record⟩ := record
    rw [List.map_cons, List.nodup_cons] at hnodup
    refine (ih hnodup.2 record (map.insert field.name (field.type.encode entry))).trans ?_
    rw [Std.ExtTreeMap.getElem?_insert, get?_cons]
    by_cases hname : field.name = name
    · rw [if_pos (Std.LawfulEqCmp.compare_eq_iff_eq.mpr hname), if_pos hname,
        (record.get?_eq_none_iff name).mpr (hname ▸ hnodup.1)]
      rfl
    · rw [if_neg (mt Std.LawfulEqCmp.compare_eq_iff_eq.mp hname), if_neg hname]

end Record

namespace Component

theorem type_set {component after : Component S} {field : String} {value : Value}
    (hset : component.set field value = .ok after) : after.type = component.type := by
  unfold set at hset
  cases hfield : S.setField component.type component.record field value with
  | error cause => simp [hfield, Except.map] at hset
  | ok record =>
    rw [hfield] at hset
    obtain rfl := Except.ok.inj hset
    rfl

/-- Values are set one after another, and the first that does not fit is where it ends. What was set
before it is lost with the component. -/
theorem setAll_cons (component : Component S) (entry : String × Value)
    (values : List (String × Value)) :
    component.setAll (entry :: values) =
      (component.set entry.1 entry.2).bind fun changed => changed.setAll values := rfl

theorem type_setAll {component after : Component S} {values : List (String × Value)}
    (hset : component.setAll values = .ok after) : after.type = component.type := by
  induction values generalizing component with
  | nil =>
    obtain rfl := Except.ok.inj hset
    rfl
  | cons entry values ih =>
    rw [setAll_cons] at hset
    cases hfirst : component.set entry.1 entry.2 with
    | error cause => simp [hfirst, Except.bind] at hset
    | ok changed =>
      rw [hfirst] at hset
      exact (ih hset).trans (type_set hfirst)

/-- What is taken down of a component is what its fields hold, each under its name. This needs that
no two fields of a type share a name, for otherwise one would hide the other. -/
theorem getElem?_snapshot (component : Component S) (name : String) :
    component.snapshot[name]? = component.get? name := by
  refine (component.record.getElem?_foldl_insert (S.distinct component.type) ∅ name).trans ?_
  rw [Std.ExtTreeMap.getElem?_empty, Option.or_none]
  rfl

/-- What a field of one component holds can be set in another of the same type, and only that field
changes. -/
theorem exists_set {source target : Component S} (htype : source.type = target.type) {name : String}
    {value : Value} (hsource : source.get? name = some value) :
    ∃ after, target.set name value = .ok after ∧ after.type = target.type ∧
      ∀ other, after.get? other = if other = name then some value else target.get? other := by
  obtain ⟨type, source⟩ := source
  obtain ⟨_, target⟩ := target
  obtain rfl : type = _ := htype
  obtain ⟨after, hset, hget⟩ := Record.exists_set? target hsource
  refine ⟨⟨type, after⟩, ?_, rfl, hget⟩
  simp only [set, Schema.setField, hset]
  rfl

/-- What fields of one component hold can be set in another of the same type, and no other fields
change. The order of the values does not matter, since all of them are from one component. -/
theorem exists_setAll {source target : Component S} (htype : source.type = target.type)
    {values : List (String × Value)}
    (hvalues : ∀ entry ∈ values, source.get? entry.1 = some entry.2) :
    ∃ after, target.setAll values = .ok after ∧
      ∀ name, after.get? name =
        if name ∈ values.map Prod.fst then source.get? name else target.get? name := by
  induction values generalizing target with
  | nil => exact ⟨target, rfl, fun name => by simp⟩
  | cons entry values ih =>
    obtain ⟨middle, hset, hsame, hfirst⟩ := exists_set htype (hvalues entry List.mem_cons_self)
    obtain ⟨after, hafter, hget⟩ := ih (htype.trans hsame.symm)
      fun other hother => hvalues other (List.mem_cons_of_mem entry hother)
    refine ⟨after, ?_, fun name => ?_⟩
    · rw [setAll_cons, hset]
      exact hafter
    · rw [hget, hfirst, List.map_cons]
      by_cases hlater : name ∈ values.map Prod.fst
      · rw [if_pos hlater, if_pos (List.mem_cons_of_mem entry.1 hlater)]
      · by_cases hname : name = entry.1
        · rw [if_neg hlater, if_pos hname, if_pos (hname ▸ List.mem_cons_self), hname,
            hvalues entry List.mem_cons_self]
        · rw [if_neg hlater, if_neg hname, if_neg (by simp [hname, hlater])]

/-- What all fields of a component hold makes another of the same type one of which the same is
taken down, whatever the other held before. -/
theorem exists_setAll_of_all {source target : Component S} (htype : source.type = target.type)
    {values : List (String × Value)}
    (hvalues : ∀ entry ∈ values, source.get? entry.1 = some entry.2)
    (hall : ∀ name value, source.get? name = some value → name ∈ values.map Prod.fst) :
    ∃ after, target.setAll values = .ok after ∧ after.type = source.type ∧
      after.snapshot = source.snapshot := by
  obtain ⟨after, hset, hget⟩ := exists_setAll htype hvalues
  refine ⟨after, hset, (type_setAll hset).trans htype.symm, ?_⟩
  refine Std.ExtTreeMap.ext_getElem? fun name => ?_
  rw [getElem?_snapshot, getElem?_snapshot, hget]
  split
  case isTrue => rfl
  case isFalse hname =>
    have hnone : source.get? name = none :=
      Option.eq_none_iff_forall_ne_some.mpr fun value hvalue => hname (hall name value hvalue)
    obtain ⟨type, source⟩ := source
    obtain ⟨_, target⟩ := target
    obtain rfl : type = _ := htype
    rw [hnone]
    exact (target.get?_eq_none_iff name).mpr ((source.get?_eq_none_iff name).mp hnone)

/-- Setting everything that was taken down of a component in another of the same type makes it one
of which the same is taken down. This is what restoring a component does. -/
theorem exists_setAll_snapshot {source target : Component S} (htype : source.type = target.type) :
    ∃ after, target.setAll source.snapshot.toList = .ok after ∧ after.type = source.type ∧
      after.snapshot = source.snapshot := by
  refine exists_setAll_of_all htype (fun entry hentry => ?_) fun name value hvalue => ?_
  · rw [← getElem?_snapshot]
    exact Std.ExtTreeMap.mem_toList_iff_getElem?_eq_some.mp hentry
  · rw [← getElem?_snapshot] at hvalue
    have hmem := Std.ExtTreeMap.mem_toList_iff_getElem?_eq_some.mpr hvalue
    exact List.mem_map.mpr ⟨(name, value), hmem, rfl⟩

end Component

end EntityWorld
