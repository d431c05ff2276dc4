import EntityWorld.Field.Type
import EntityWorld.Proofs.Binary
import EntityWorld.Proofs.Traversal

namespace EntityWorld

namespace IntegerType

/-- No integer type of a field is wider than the two kinds of integers that values have. -/
theorem bits_le (type : IntegerType) : type.width.bits ≤ 64 := by
  cases type.width <;> decide

theorem readInteger_self (type : IntegerType) (n : type.Range) :
    FieldType.readInteger type n.1 = .ok n := by
  rw [FieldType.readInteger, dif_pos n.2]

/-- Signed integers of every width fit into 64 bits, so writing one as a value changes nothing. -/
theorem toInt_ofInt {type : IntegerType} (hsigned : type.signed = true) (n : type.Range) :
    (Int64.ofInt n.1).toInt = n.1 := by
  obtain ⟨n, hlow, hhigh⟩ := n
  have hwidth : type.width.bits - 1 ≤ 63 := by
    have := type.bits_le
    omega
  have hpow : 1 <<< (type.width.bits - 1) ≤ 2 ^ 63 := by
    rw [Nat.one_shiftLeft]
    exact Nat.pow_le_pow_right (by decide) hwidth
  rw [least, if_pos hsigned] at hlow
  rw [greatest, if_pos hsigned] at hhigh
  exact Int64.toInt_ofInt_of_le (show -2 ^ 63 ≤ n by omega) (show n < 2 ^ 63 by omega)

/-- Unsigned integers of every width fit into 64 bits as well. -/
theorem toNat_ofNat {type : IntegerType} (hunsigned : type.signed = false) (n : type.Range) :
    ((UInt64.ofNat n.1.toNat).toNat : Int) = n.1 := by
  obtain ⟨n, hlow, hhigh⟩ := n
  have hpow : 1 <<< type.width.bits ≤ 2 ^ 64 := by
    rw [Nat.one_shiftLeft]
    exact Nat.pow_le_pow_right (by decide) type.bits_le
  have hnot : ¬type.signed = true := by simp [hunsigned]
  rw [least, if_neg hnot] at hlow
  rw [greatest, if_neg hnot] at hhigh
  rw [UInt64.toNat_ofNat']
  change ((n.toNat % 2 ^ 64 : Nat) : Int) = n
  omega

end IntegerType

namespace FieldType

/-- Null is read as an absent value, and every other value as a present one. So a present value that
is itself written as null cannot come back. -/
theorem decode_option {type : FieldType} {v : Value} (hnull : v ≠ .null) :
    (option type).decode v = (type.decode v).map some := by
  cases v <;> first | rfl | exact absurd rfl hnull

/-- An integer is written as the kind of its sign and read back from it, since 64 bits hold every
width that there is. -/
theorem decode_encode_integer (type : IntegerType) (n : type.Range) :
    (integer type).decode ((integer type).encode n) = .ok n := by
  change (integer type).decode
    (if type.signed then .int (.ofInt n.1) else .uint (.ofNat n.1.toNat)) = .ok n
  split
  case isTrue hsigned =>
    change readInteger type (Int64.ofInt n.1).toInt = .ok n
    rw [type.toInt_ofInt hsigned, type.readInteger_self]
  case isFalse hunsigned =>
    change readInteger type (UInt64.ofNat n.1.toNat).toNat = .ok n
    rw [type.toNat_ofNat (by simpa using hunsigned), type.readInteger_self]

/-- What a field holds is written as a value that its type reads, and what is read from it is
written as the same value. The entry itself may come back as another one: an optional value that
holds an absent value is written as null, which is read as an absent value. -/
theorem exists_decode_encode (type : FieldType) (entry : type.Carrier) :
    ∃ read, type.decode (type.encode entry) = .ok read ∧ type.encode read = type.encode entry := by
  induction type with
  | bool | double | char | string | value => exact ⟨entry, rfl, rfl⟩
  | single => exact ⟨entry, congrArg Except.ok (narrow_widen entry), rfl⟩
  | integer type => exact ⟨entry, decode_encode_integer type entry, rfl⟩
  | option type ih =>
    match entry with
    | none => exact ⟨none, rfl, rfl⟩
    | some inner =>
      obtain ⟨read, hread, hsame⟩ := ih inner
      change ∃ read, (option type).decode (type.encode inner) = .ok read ∧
        (option type).encode read = type.encode inner
      by_cases hnull : type.encode inner = .null
      · rw [hnull]
        exact ⟨none, rfl, rfl⟩
      · refine ⟨some read, ?_, hsame⟩
        rw [decode_option hnull, hread]
        rfl
  | list type ih =>
    let items : List type.Carrier := entry
    obtain ⟨reads, hreads⟩ := exists_forall₂ fun item (_ : item ∈ items) => ih item
    have hread : (items.map type.encode).mapM type.decode = .ok reads := by
      rw [mapM_eq_ok_iff, List.forall₂_map_left_iff]
      exact hreads.imp fun _ _ hitem => hitem.1
    have hsame : reads.map type.encode = items.map type.encode :=
      map_eq_map_of_forall₂ hreads fun _ _ hitem => hitem.2
    exact ⟨reads, hread, congrArg Value.list hsame⟩

/-- Whether a type writes some of its entries as null: optional values do, and any value may be
null. -/
def isNullable : FieldType → Bool
  | value | option _ => true
  | bool | integer _ | single | double | char | string | list _ => false

/-- Whether no optional value in a type holds an optional value, or any value, directly. Only there
two entries are written the same way. -/
def isFaithful : FieldType → Bool
  | option type => !type.isNullable && type.isFaithful
  | list type => type.isFaithful
  | bool | integer _ | single | double | char | string | value => true

theorem encode_ne_null {type : FieldType} (hnot : type.isNullable = false) (entry : type.Carrier) :
    type.encode entry ≠ .null := by
  cases type with
  | bool | single | double | char | string | list => nofun
  | integer type =>
    change (if type.signed then Value.int (.ofInt entry.1) else .uint (.ofNat entry.1.toNat)) ≠ .null
    split <;> nofun
  | value | option => cases hnot

/-- A nullable type has an entry that it writes as null, so this cannot be told from an absent
value. -/
theorem exists_encode_eq_null {type : FieldType} (hnullable : type.isNullable = true) :
    ∃ entry, type.encode entry = .null := by
  cases type with
  | value => exact ⟨Value.null, rfl⟩
  | option type => exact ⟨none, rfl⟩
  | bool | integer | single | double | char | string | list => cases hnullable

/-- What an optional value holds is read back if it is not written as null: then it comes back just
if it would without being optional. -/
theorem decode_encode_some_iff {type : FieldType} (hnot : type.isNullable = false)
    (entry : type.Carrier) :
    (option type).decode ((option type).encode (some entry)) = .ok (some entry) ↔
      type.decode (type.encode entry) = .ok entry := by
  change (option type).decode (type.encode entry) = .ok (some entry) ↔ _
  rw [decode_option (encode_ne_null hnot entry)]
  cases type.decode (type.encode entry) with
  | error cause => exact iff_of_false nofun nofun
  | ok read =>
    change Except.ok (some read) = Except.ok (some entry) ↔ _
    rw [Except.ok.injEq, Except.ok.injEq, Option.some.injEq]

/-- A list is read back if all its items are. Lists of optional values are thus no harm, although
each item may be written as null. -/
theorem decode_encode_list_iff {type : FieldType} (items : List type.Carrier) :
    (list type).decode ((list type).encode items) = .ok items ↔
      ∀ item ∈ items, type.decode (type.encode item) = .ok item := by
  change (items.map type.encode).mapM type.decode = .ok items ↔ _
  rw [mapM_eq_ok_iff, List.forall₂_map_left_iff, List.forall₂_same]

/-- A faithful type reads back every entry that it writes. The induction follows the type: inside an
optional value stands a type that is not nullable. -/
theorem decode_encode_of_isFaithful {type : FieldType} (hfaithful : type.isFaithful = true)
    (entry : type.Carrier) : type.decode (type.encode entry) = .ok entry := by
  induction type with
  | bool | double | char | string | value => rfl
  | single => exact congrArg Except.ok (narrow_widen entry)
  | integer type => exact decode_encode_integer type entry
  | option type ih =>
    obtain ⟨hnot, htype⟩ : type.isNullable = false ∧ type.isFaithful = true := by
      simpa [isFaithful] using hfaithful
    match entry with
    | none => rfl
    | some inner => exact (decode_encode_some_iff hnot inner).mpr (ih htype inner)
  | list type ih => exact (decode_encode_list_iff entry).mpr fun item _ => ih hfaithful item

/-- A type that reads back every entry is faithful. Otherwise some optional value in it could hold
an absent value, which comes back as absent. -/
theorem isFaithful_of_decode_encode {type : FieldType}
    (hall : ∀ entry, type.decode (type.encode entry) = .ok entry) : type.isFaithful = true := by
  induction type with
  | bool | integer | single | double | char | string | value => rfl
  | option type ih =>
    have hnot : type.isNullable = false := by
      by_contra hnullable
      obtain ⟨entry, hentry⟩ := exists_encode_eq_null (Bool.eq_true_of_not_eq_false hnullable)
      have hread : (option type).decode (type.encode entry) = .ok (some entry) := hall (some entry)
      rw [hentry] at hread
      cases hread
    have htype := ih fun entry => (decode_encode_some_iff hnot entry).mp (hall (some entry))
    rw [isFaithful, hnot, htype]
    rfl
  | list type ih =>
    exact ih fun entry => (decode_encode_list_iff [entry]).mp (hall [entry]) entry List.mem_cons_self

/-- Every type reads the values that it writes, as entries that are written as the same values. They
are the entries that were written exactly if no optional value in the type holds an optional value,
or any value, directly. -/
theorem decode_encode_iff_isFaithful (type : FieldType) :
    (∀ entry, ∃ read, type.decode (type.encode entry) = .ok read ∧
      type.encode read = type.encode entry) ∧
    ((∀ entry, type.decode (type.encode entry) = .ok entry) ↔ type.isFaithful = true) :=
  ⟨exists_decode_encode type, isFaithful_of_decode_encode, decode_encode_of_isFaithful⟩

/-- The absent value in an optional value is lost. -/
example : (option (option .bool)).decode ((option (option .bool)).encode (some none)) = .ok none :=
  rfl

end FieldType

end EntityWorld
