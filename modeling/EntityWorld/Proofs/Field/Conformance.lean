import EntityWorld.Proofs.Field

namespace EntityWorld

/-- The number that a value of either kind of integers stands for. -/
def Value.number? : Value → Option Int
  | .int n => some n.toInt
  | .uint n => some n.toNat
  | .null | .bool _ | .float _ | .char _ | .string _ | .list _ => none

/-- The integers of a type by its sign and its width, as they are known from two's complement. -/
def IntegerType.Holds (type : IntegerType) (n : Int) : Prop :=
  if type.signed then -2 ^ (type.width.bits - 1) ≤ n ∧ n < 2 ^ (type.width.bits - 1)
  else 0 ≤ n ∧ n < 2 ^ type.width.bits

/-- The bounds that reading compares with are those of the sign and the width. -/
theorem IntegerType.holds_iff {type : IntegerType} {n : Int} :
    type.Holds n ↔ type.least ≤ n ∧ n ≤ type.greatest := by
  unfold Holds least greatest
  cases type.signed <;> simp [Nat.one_shiftLeft]

namespace FieldType

/-- The values that fit a type. An integer may come as either kind of integers. -/
inductive Conforms : FieldType → Value → Prop
  | bool (b : Bool) : Conforms .bool (.bool b)
  | integer {type : IntegerType} {v : Value} {n : Int} (number : v.number? = some n)
      (holds : type.Holds n) : Conforms (.integer type) v
  | single (x : Float) : Conforms .single (.float x)
  | double (x : Float) : Conforms .double (.float x)
  | char (c : Char) : Conforms .char (.char c)
  | string (s : String) : Conforms .string (.string s)
  | value (v : Value) : Conforms .value v
  | absent (type : FieldType) : Conforms (.option type) .null
  | present {type : FieldType} {v : Value} (inner : Conforms type v) : Conforms (.option type) v
  | list {type : FieldType} {items : List Value} (all : ∀ item ∈ items, Conforms type item) :
      Conforms (.list type) (.list items)

/-- The word for what a type expects. An optional value expects what it holds when it is not
absent. -/
def expected : FieldType → String
  | bool => "bool"
  | integer type => type.name
  | single => "f32"
  | double => "f64"
  | char => "char"
  | string => "string"
  | value => "value"
  | option type => type.expected
  | list _ => "list"

/-- What is reported of a part that does not fit. An integer is out of range, and everything else is
of another kind than expected. -/
def report (type : FieldType) (v : Value) : FieldError :=
  match type, v.number? with
  | integer type, some n => .outOfRange n type
  | type, _ => .typeMismatch type.expected v.kind

/-- The parts of a value from left to right, each with its own type: lists are taken apart where the
type is one of lists, and optional values are looked through. Each part fits or not by itself. -/
def parts : FieldType → Value → List (FieldType × Value)
  | option _, .null => []
  | option type, v => type.parts v
  | list type, .list items => items.flatMap type.parts
  | type, v => [(type, v)]

/-- The error that the first part at fault is reported with, if there is one. Parts behind it may be
at fault as well. -/
def FirstFault (type : FieldType) (v : Value) (error : FieldError) : Prop :=
  ∃ before part after, type.parts v = before ++ part :: after ∧
    (∀ earlier ∈ before, earlier.1.Conforms earlier.2) ∧
    ¬part.1.Conforms part.2 ∧ error = part.1.report part.2

/-- Whether a value is a part by itself. -/
def IsPart : FieldType → Value → Prop
  | option _, _ => False
  | list _, .list _ => False
  | _, _ => True

theorem parts_of_isPart {type : FieldType} {v : Value} (hpart : type.IsPart v) :
    type.parts v = [(type, v)] := by
  cases type with
  | option => exact hpart.elim
  | list =>
    cases v with
    | list => exact hpart.elim
    | null | bool | int | uint | float | char | string => rfl
  | bool | integer | single | double | char | string | value => rfl

/-- In a value that is not taken apart only the value itself can be at fault. -/
theorem firstFault_of_isPart {type : FieldType} {v : Value} (hpart : type.IsPart v)
    {error : FieldError} :
    type.FirstFault v error ↔ ¬type.Conforms v ∧ error = type.report v := by
  unfold FirstFault
  rw [parts_of_isPart hpart]
  constructor
  · rintro ⟨before, part, after, hsplit, -, hfault⟩
    obtain ⟨rfl, rfl, rfl⟩ : before = [] ∧ part = (type, v) ∧ after = [] := by
      simpa [List.cons_eq_append_iff] using hsplit
    exact hfault
  · exact fun hfault => ⟨[], (type, v), [], rfl, by simp, hfault⟩

/-- An integer is read from either kind of integers if it is in range, and else reported as out of
range with the number that it stands for. -/
theorem decode_integer_cases {type : IntegerType} {v : Value} {n : Int} (hnumber : v.number? = some n) :
    (∃ entry, (integer type).decode v = .ok entry ∧ entry.1 = n) ∧ type.Holds n ∨
      (integer type).decode v = .error (.outOfRange n type) ∧ ¬type.Holds n := by
  have hread : (integer type).decode v = readInteger type n := by
    cases v with
    | int | uint =>
      obtain rfl := Option.some.inj hnumber
      rfl
    | null | bool | float | char | string | list => cases hnumber
  rw [hread, readInteger, IntegerType.holds_iff]
  split
  case isTrue hholds => exact .inl ⟨⟨⟨n, hholds⟩, rfl, rfl⟩, hholds⟩
  case isFalse hbeyond => exact .inr ⟨rfl, hbeyond⟩

/-- What is read as an integer is the number that the value stands for, not its bits. -/
theorem number?_of_decode_integer {type : IntegerType} {v : Value} {n : type.Range}
    (hread : (integer type).decode v = .ok n) : v.number? = some n.1 := by
  cases hnumber : v.number? with
  | some number =>
    rcases @decode_integer_cases type v number hnumber with ⟨⟨entry, hentry, rfl⟩, -⟩ | ⟨hfailed, -⟩
    · obtain rfl := Except.ok.inj (hread.symm.trans hentry)
      rfl
    · cases hread.symm.trans hfailed
  | none =>
    cases v with
    | int | uint => cases hnumber
    | null | bool | float | char | string | list => cases hread

/-- A part by itself is read if it fits, and else reported. -/
theorem decode_of_isPart {type : FieldType} {v : Value} (hpart : type.IsPart v) :
    (∃ entry, type.decode v = .ok entry) ∧ type.Conforms v ∨
      type.decode v = .error (type.report v) ∧ ¬type.Conforms v := by
  cases type with
  | option => exact hpart.elim
  | bool =>
    cases v with
    | bool b => exact .inl ⟨⟨b, rfl⟩, .bool b⟩
    | null | int | uint | float | char | string | list => exact .inr ⟨rfl, nofun⟩
  | single =>
    cases v with
    | float x => exact .inl ⟨⟨narrow x, rfl⟩, .single x⟩
    | null | bool | int | uint | char | string | list => exact .inr ⟨rfl, nofun⟩
  | double =>
    cases v with
    | float x => exact .inl ⟨⟨x, rfl⟩, .double x⟩
    | null | bool | int | uint | char | string | list => exact .inr ⟨rfl, nofun⟩
  | char =>
    cases v with
    | char c => exact .inl ⟨⟨c, rfl⟩, .char c⟩
    | null | bool | int | uint | float | string | list => exact .inr ⟨rfl, nofun⟩
  | string =>
    cases v with
    | string s => exact .inl ⟨⟨s, rfl⟩, .string s⟩
    | null | bool | int | uint | float | char | list => exact .inr ⟨rfl, nofun⟩
  | value => exact .inl ⟨⟨v, rfl⟩, .value v⟩
  | list =>
    cases v with
    | list => exact hpart.elim
    | null | bool | int | uint | float | char | string => exact .inr ⟨rfl, nofun⟩
  | integer type =>
    have hreport {n : Int} (hnumber : v.number? = some n) :
        (integer type).report v = .outOfRange n type := by
      simp only [report, hnumber]
    have hconforms {n : Int} (hnumber : v.number? = some n) (hbeyond : ¬type.Holds n) :
        ¬(integer type).Conforms v := by
      rintro (_ | ⟨hother, hholds⟩)
      obtain rfl := Option.some.inj (hnumber.symm.trans hother)
      exact hbeyond hholds
    cases hnumber : v.number? with
    | some n =>
      rcases @decode_integer_cases type v n hnumber with ⟨⟨entry, hread, -⟩, hholds⟩ | ⟨hread, hbeyond⟩
      · exact .inl ⟨⟨entry, hread⟩, .integer hnumber hholds⟩
      · exact .inr ⟨hread.trans (congrArg Except.error (hreport hnumber).symm),
          hconforms hnumber hbeyond⟩
    | none =>
      refine .inr ⟨?_, ?_⟩
      · cases v with
        | int | uint => cases hnumber
        | null | bool | float | char | string | list => rfl
      · rintro (_ | ⟨hother, -⟩)
        cases hnumber.symm.trans hother

/-- The first at fault among the parts of all items is the first among those of the first item that
has any at fault. A traversal that stops at the first failing item finds that one. -/
theorem first_flatMap_iff {α β : Type} {f : α → List β} {items : List α} {P Q : β → Prop} :
    (∃ before part after, items.flatMap f = before ++ part :: after ∧
        (∀ earlier ∈ before, P earlier) ∧ Q part) ↔
      ∃ before item after, items = before ++ item :: after ∧
        (∀ earlier ∈ before, ∀ part ∈ f earlier, P part) ∧
        ∃ front part back, f item = front ++ part :: back ∧ (∀ earlier ∈ front, P earlier) ∧
          Q part := by
  induction items with
  | nil => simp
  | cons first rest ih =>
    rw [List.flatMap_cons]
    constructor
    · rintro ⟨before, part, after, hsplit, hbefore, hpart⟩
      have hlater {front : List β} (hrest : rest.flatMap f = front ++ part :: after)
          (hfront : ∀ earlier ∈ front, P earlier) (hfirst : ∀ part ∈ f first, P part) :
          ∃ before item after, first :: rest = before ++ item :: after ∧
            (∀ earlier ∈ before, ∀ part ∈ f earlier, P part) ∧
            ∃ front part back, f item = front ++ part :: back ∧ (∀ earlier ∈ front, P earlier) ∧
              Q part := by
        obtain ⟨before, item, after, rfl, hitems, hitem⟩ :=
          ih.mp ⟨front, part, after, hrest, hfront, hpart⟩
        exact ⟨first :: before, item, after, rfl, List.forall_mem_cons.mpr ⟨hfirst, hitems⟩, hitem⟩
      rcases List.append_eq_append_iff.mp hsplit with ⟨front, rfl, hrest⟩ | ⟨back, hfirst, hback⟩
      · exact hlater hrest (fun earlier hmem => hbefore earlier (List.mem_append_right _ hmem))
          fun earlier hmem => hbefore earlier (List.mem_append_left _ hmem)
      · cases back with
        | nil =>
          rw [List.append_nil] at hfirst
          exact @hlater [] hback.symm (by simp) (hfirst ▸ hbefore)
        | cons other back =>
          obtain ⟨rfl, -⟩ := List.cons.inj hback
          exact ⟨[], first, rest, rfl, by simp, before, part, back, hfirst, hbefore, hpart⟩
    · rintro ⟨before, item, after, hsplit, hbefore, front, part, back, hitem, hfront, hpart⟩
      cases before with
      | nil =>
        obtain ⟨rfl, rfl⟩ := List.cons.inj hsplit
        exact ⟨front, part, back ++ rest.flatMap f, by simp [hitem], hfront, hpart⟩
      | cons other before =>
        obtain ⟨rfl, rfl⟩ := List.cons.inj hsplit
        rw [List.forall_mem_cons] at hbefore
        obtain ⟨front, part, back, hrest, hfront, hpart⟩ :=
          ih.mpr ⟨before, item, after, rfl, hbefore.2, front, part, back, hitem, hfront, hpart⟩
        refine ⟨f first ++ front, part, back, by rw [hrest, List.append_assoc], ?_, hpart⟩
        exact List.forall_mem_append.mpr ⟨hbefore.1, hfront⟩

/-- What an optional value holds fits or not by the type of what it holds, unless it is null, which
always fits. -/
theorem conforms_option_iff {type : FieldType} {v : Value} :
    (option type).Conforms v ↔ v = .null ∨ type.Conforms v := by
  constructor
  · rintro (_ | _)
    case absent => exact .inl rfl
    case present hinner => exact .inr hinner
  · rintro (rfl | hinner)
    · exact .absent type
    · exact .present hinner

theorem conforms_list_iff {type : FieldType} {items : List Value} :
    (list type).Conforms (.list items) ↔ ∀ item ∈ items, type.Conforms item :=
  ⟨fun hconforms => by cases hconforms; assumption, .list⟩

/-- A type reads exactly the values that fit it. The induction follows the type, and over a list its
items. -/
theorem exists_decode_iff_conforms (type : FieldType) (v : Value) :
    (∃ entry, type.decode v = .ok entry) ↔ type.Conforms v := by
  have hwhole {type : FieldType} {v : Value} (hpart : type.IsPart v) :
      (∃ entry, type.decode v = .ok entry) ↔ type.Conforms v := by
    rcases decode_of_isPart hpart with ⟨hread, hconforms⟩ | ⟨hfailed, hnot⟩
    · exact iff_of_true hread hconforms
    · refine iff_of_false ?_ hnot
      rintro ⟨entry, hread⟩
      cases hfailed.symm.trans hread
  induction type generalizing v with
  | bool | integer | single | double | char | string | value => exact hwhole trivial
  | option type ih =>
    simp only [conforms_option_iff, ← ih]
    by_cases hnull : v = .null
    · subst hnull
      exact iff_of_true ⟨none, rfl⟩ (.inl rfl)
    · rw [decode_option hnull]
      cases type.decode v with
      | ok entry => exact iff_of_true ⟨some entry, rfl⟩ (.inr ⟨entry, rfl⟩)
      | error cause =>
        refine iff_of_false nofun ?_
        rintro (hvalue | ⟨_, hread⟩)
        · exact hnull hvalue
        · cases hread
  | list type ih =>
    cases v with
    | null | bool | int | uint | float | char | string => exact hwhole trivial
    | list items =>
      rw [conforms_list_iff]
      simp only [← ih]
      change (∃ entries, items.mapM type.decode = .ok entries) ↔ _
      simp only [mapM_eq_ok_iff]
      constructor
      · rintro ⟨entries, hentries⟩ item hitem
        obtain ⟨entry, _, hread⟩ := exists_of_mem_forall₂ hentries.flip hitem
        exact ⟨entry, hread⟩
      · exact exists_forall₂

/-- A value fits if all of its parts do, so one that does not fit has a first part at fault. The
induction follows the type. -/
theorem conforms_iff_forall_parts (type : FieldType) (v : Value) :
    type.Conforms v ↔ ∀ part ∈ type.parts v, part.1.Conforms part.2 := by
  have hwhole {type : FieldType} {v : Value} (hpart : type.IsPart v) :
      type.Conforms v ↔ ∀ part ∈ type.parts v, part.1.Conforms part.2 := by
    simp [parts_of_isPart hpart]
  induction type generalizing v with
  | bool | integer | single | double | char | string | value => exact hwhole trivial
  | option type ih =>
    simp only [conforms_option_iff, ih]
    cases v <;> simp [parts]
  | list type ih =>
    cases v with
    | null | bool | int | uint | float | char | string => exact hwhole trivial
    | list items =>
      rw [conforms_list_iff, parts, List.forall_mem_flatMap]
      exact forall₂_congr fun item _ => ih item

/-- Reading fails with the report of the first part at fault, from left to right. Over a list this
is the first item that fails, and of that item its first part. -/
theorem decode_eq_error_iff_firstFault (type : FieldType) (v : Value) (error : FieldError) :
    type.decode v = .error error ↔ type.FirstFault v error := by
  have hwhole {type : FieldType} {v : Value} (hpart : type.IsPart v) :
      type.decode v = .error error ↔ type.FirstFault v error := by
    rw [firstFault_of_isPart hpart]
    rcases decode_of_isPart hpart with ⟨⟨entry, hread⟩, hconforms⟩ | ⟨hfailed, hnot⟩
    · simp [hread, hconforms]
    · simp [hfailed, hnot, eq_comm]
  induction type generalizing v with
  | bool | integer | single | double | char | string | value => exact hwhole trivial
  | option type ih =>
    by_cases hnull : v = .null
    · subst hnull
      exact iff_of_false nofun fun ⟨before, part, after, hsplit, _⟩ => by simp [parts] at hsplit
    · have hparts : (option type).parts v = type.parts v := by
        cases v <;> first | rfl | exact absurd rfl hnull
      have hfirst : (option type).FirstFault v error ↔ type.FirstFault v error := by
        rw [FirstFault, FirstFault, hparts]
      simp only [hfirst, ← ih, decode_option hnull]
      cases type.decode v with
      | ok entry => exact iff_of_false nofun nofun
      | error cause => exact ⟨fun hsame => by cases hsame; rfl, fun hsame => by cases hsame; rfl⟩
  | list type ih =>
    cases v with
    | null | bool | int | uint | float | char | string => exact hwhole trivial
    | list items =>
      change items.mapM type.decode = .error error ↔ _
      rw [mapM_eq_error_iff, FirstFault, parts, first_flatMap_iff]
      simp only [← conforms_iff_forall_parts, exists_decode_iff_conforms, ih]
      rfl

/-- A type reads exactly the values that fit it, and as an integer the number that the value stands
for. It fails on all others, with the report of the first part from left to right that does not fit:
that an integer is out of range of its type, or else what is expected of the part and what it is. -/
theorem decode_iff_conforms (type : FieldType) (v : Value) :
    ((∃ entry, type.decode v = .ok entry) ↔ type.Conforms v) ∧
    (∀ (kind : IntegerType) (n : kind.Range),
      (integer kind).decode v = .ok n → v.number? = some n.1) ∧
    ∀ error, type.decode v = .error error ↔ type.FirstFault v error :=
  ⟨exists_decode_iff_conforms type v, fun _ _ => number?_of_decode_integer,
    decode_eq_error_iff_firstFault type v⟩

/-- The first of two faults is reported, with the number in decimal digits. -/
example :
    ((list (.integer { signed := false, width := .bits8 })).decode
      (.list [.int 7, .int (-1), .bool true])).mapError FieldError.message =
      .error "Value -1 does not fit into u8" :=
  rfl

end FieldType

end EntityWorld
