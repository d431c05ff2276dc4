import Mathlib.Data.String.Basic

namespace EntityWorld

/-- A smaller character has the smaller encoding, whatever follows the two: the encodings differ,
and neither begins with the other. -/
theorem utf8EncodeChar_append_lt {a b : Char} (hlt : a < b) (rest others : List UInt8) :
    String.utf8EncodeChar a ++ rest < String.utf8EncodeChar b ++ others := by
  have hval : a.val.toNat < b.val.toNat := hlt
  have hbound : b.val.toNat < 0x110000 := by
    have hvalid := b.valid
    simp only [UInt32.isValidChar, Nat.isValidChar] at hvalid
    omega
  unfold String.utf8EncodeChar
  generalize a.val.toNat = v at *
  generalize b.val.toNat = w at *
  -- No byte overflows, and each holds the six bits before those of the next.
  have hlast (value : Nat) : (value % 64 + 128) % 256 = value % 64 + 128 := by omega
  have htwo (value : Nat) : (value % 32 + 192) % 256 = value % 32 + 192 := by omega
  have hthree (value : Nat) : (value % 16 + 224) % 256 = value % 16 + 224 := by omega
  have hfour (value : Nat) : (value % 8 + 240) % 256 = value % 8 + 240 := by omega
  have htwice (value : Nat) : value / 4096 = value / 64 / 64 := by omega
  have hthrice (value : Nat) : value / 262144 = value / 64 / 64 / 64 := by omega
  have hbytes {x y : UInt8} {xs ys : List UInt8} :
      x :: xs < y :: ys ↔ x.toNat < y.toNat ∨ x.toNat = y.toNat ∧ xs < ys := by
    rw [List.cons_lt_cons_iff, UInt8.lt_iff_toNat_lt, UInt8.toNat_inj]
  dsimp only
  -- One case for each two lengths that the encodings can have.
  split <;> split <;> (try split) <;> (try split) <;> (try split) <;> (try split) <;>
    simp only [List.cons_append, hbytes, UInt8.toNat_ofNat', Nat.reducePow, hlast, htwo, hthree,
      hfour, htwice, hthrice] <;>
    omega

/-- A smaller list of characters has the smaller encoding: at the first place where the two differ
the bytes decide, and a proper beginning stays one. -/
theorem flatMap_utf8EncodeChar_lt {chars others : List Char} (hlt : chars < others) :
    chars.flatMap String.utf8EncodeChar < others.flatMap String.utf8EncodeChar := by
  induction hlt with
  | @nil char chars =>
    obtain ⟨byte, bytes, hbytes⟩ := List.exists_cons_of_ne_nil (@String.utf8EncodeChar_ne_nil char)
    rw [List.flatMap_cons, hbytes]
    exact List.nil_lt_cons _ _
  | rel hchar => exact utf8EncodeChar_append_lt hchar _ _
  | cons _ ih => exact List.append_left_lt ih

theorem toList_toUTF8 (text : String) :
    text.toUTF8.data.toList = text.toList.flatMap String.utf8EncodeChar := by
  conv_lhs => rw [← String.ofList_toList (s := text)]
  rw [String.toUTF8, String.toByteArray_ofList, List.utf8Encode, List.toList_data_toByteArray]

theorem toUTF8_lt_of_lt {a b : String} (hlt : a < b) :
    a.toUTF8.data.toList < b.toUTF8.data.toList := by
  rw [toList_toUTF8, toList_toUTF8]
  exact flatMap_utf8EncodeChar_lt (String.lt_iff_toList_lt.mp hlt)

/-- One text stands before another exactly if its bytes do. Comparing two texts character by
character comes to the same as comparing their encodings byte by byte. -/
theorem toUTF8_le_iff {a b : String} :
    a.toUTF8.data.toList ≤ b.toUTF8.data.toList ↔ a ≤ b := by
  constructor
  · intro hbytes
    exact String.not_lt.mp fun hlt => hbytes (toUTF8_lt_of_lt hlt)
  · intro hle
    rcases hle.lt_or_eq with hlt | rfl
    · exact List.le_of_lt (toUTF8_lt_of_lt hlt)
    · exact List.le_refl _

theorem toUTF8_inj {a b : String} : a.toUTF8.data.toList = b.toUTF8.data.toList ↔ a = b := by
  refine ⟨fun heq => le_antisymm ?_ ?_, fun heq => heq ▸ rfl⟩
  · exact toUTF8_le_iff.mp (heq ▸ List.le_refl _)
  · exact toUTF8_le_iff.mp (heq ▸ List.le_refl _)

end EntityWorld
