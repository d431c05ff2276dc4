import EntityWorld.Binary
import Mathlib

namespace EntityWorld

open Float.Model

theorem toBitVec_ofBitVec (bit : BitVec 1) : (UnpackedFloat.Sign.ofBitVec bit).toBitVec = bit := by
  revert bit
  decide

/-- An encoding is its sign, its exponent field and its fraction. This holds of every pattern of
bits, valid or not. -/
theorem packComponents_unpack {format : Format} (bits : BitVec format.numBits) :
    UnpackedFloat.packComponents format (.ofBitVec (UnpackedFloat.unpackSign bits))
      (UnpackedFloat.unpackExponent bits) (UnpackedFloat.unpackMantissa bits) = bits := by
  have hmantissa := format.hm
  have hexponent := format.he
  refine BitVec.eq_of_getLsbD_eq fun i hi => ?_
  have hbits : format.numBits = 1 + format.exponentBits + format.mantissaBitsWithoutImplicit := rfl
  simp only [UnpackedFloat.packComponents, toBitVec_ofBitVec, UnpackedFloat.unpackSign,
    UnpackedFloat.unpackExponent, UnpackedFloat.unpackMantissa, BitVec.getLsbD_append,
    BitVec.getLsbD_cast, BitVec.getLsbD_extractLsb]
  split
  · rw [decide_eq_true (by omega), Bool.true_and, Nat.zero_add]
  · split
    · rw [decide_eq_true (by omega), Bool.true_and]
      congr 1
      omega
    · rw [decide_eq_true (by omega), Bool.true_and]
      congr 1
      omega

/-- A leading bit in front of a fraction counts as much as all values that the fraction can have. -/
theorem toNat_one_append {width : Nat} (fraction : BitVec width) :
    (1#1 ++ fraction).toNat = 2 ^ width + fraction.toNat := by
  rw [BitVec.toNat_append, ← Nat.shiftLeft_add_eq_or_of_lt fraction.isLt, Nat.shiftLeft_eq]
  simp

/-- A number below the normal ones is packed as its fraction. Its exponent is the least there is, so
packing has no room to shift it. -/
theorem pack_subnormal {format : Format} (hwide : 1 < format.exponentBits) {sign : UnpackedFloat.Sign}
    {fraction : BitVec format.mantissaBitsWithoutImplicit} (hpositive : 0 < fraction.toNat) :
    UnpackedFloat.pack format (.finite sign fraction.toNat
      ((0 : Nat) - (format.exponentBias + format.mantissaBitsWithoutImplicit : Int) + 1)
      hpositive) = UnpackedFloat.packComponents format sign 0#_ fraction := by
  have hfraction := fraction.isLt
  have hwidth : format.mantissaBits = 1 + format.mantissaBitsWithoutImplicit := rfl
  have hfields : 2 ^ 2 ≤ 2 ^ format.exponentBits := Nat.pow_le_pow_right (by decide) hwide
  have hlog : fraction.toNat.log2 < format.mantissaBitsWithoutImplicit :=
    (Nat.log2_lt (by omega)).mpr hfraction
  rw [UnpackedFloat.pack, if_neg (by omega), if_neg (by omega), BitVec.ofNat_toNat,
    BitVec.setWidth_eq]

/-- A normal number is packed without its leading bit, which its exponent field stands for. Having
that bit, it needs no shifting, and no bit of it is lost. -/
theorem pack_normal {format : Format} {sign : UnpackedFloat.Sign}
    {field : BitVec format.exponentBits} (hfield : field ≠ -1#_)
    (fraction : BitVec format.mantissaBitsWithoutImplicit)
    (hpositive : 0 < (1#1 ++ fraction).toNat) :
    UnpackedFloat.pack format (.finite sign (1#1 ++ fraction).toNat
      (field.toNat - (format.exponentBias + format.mantissaBitsWithoutImplicit : Int))
      hpositive) = UnpackedFloat.packComponents format sign field fraction := by
  have hfraction := fraction.isLt
  have hwidth : format.mantissaBits = 1 + format.mantissaBitsWithoutImplicit := rfl
  have hlog : (1#1 ++ fraction).toNat.log2 = format.mantissaBitsWithoutImplicit := by
    rw [toNat_one_append, Nat.log2_eq_iff (by omega), Nat.pow_succ]
    omega
  have hbelow : field.toNat + 1 < 2 ^ format.exponentBits := by
    have hbound := field.isLt
    have hne : field.toNat ≠ 2 ^ format.exponentBits - 1 := fun hnat =>
      hfield (BitVec.eq_of_toNat_eq (by rw [hnat, BitVec.neg_one_eq_allOnes, BitVec.toNat_allOnes]))
    omega
  have hbiased : (field.toNat - (format.exponentBias + format.mantissaBitsWithoutImplicit : Int) +
      format.exponentBias + format.mantissaBitsWithoutImplicit).toNat = field.toNat := by
    omega
  have hrest : BitVec.ofNat format.mantissaBitsWithoutImplicit (1#1 ++ fraction).toNat =
      fraction := by
    refine BitVec.eq_of_toNat_eq ?_
    rw [BitVec.toNat_ofNat, toNat_one_append, Nat.add_mod_left, Nat.mod_eq_of_lt hfraction]
  rw [UnpackedFloat.pack]
  simp only [hbiased]
  rw [if_neg (by omega), if_pos (by omega), hrest, BitVec.ofNat_toNat, BitVec.setWidth_eq]

/-- In formats of more than one exponent bit every valid encoding survives being read and written
again. The cases are those of the exponent field: all ones, zero, and in between. -/
theorem pack_unpack {format : Format} (hwide : 1 < format.exponentBits)
    {bits : BitVec format.numBits} (hvalid : format.Valid bits) :
    UnpackedFloat.pack format (UnpackedFloat.unpack format bits) = bits := by
  have hparts := packComponents_unpack bits
  simp only [UnpackedFloat.unpack]
  split
  case isTrue hinfinite =>
    split
    case isTrue hzero => rwa [hinfinite, hzero] at hparts
    case isFalse hnan => exact (hvalid.eq_packedNaN hinfinite hnan).symm
  case isFalse hfinite =>
    split
    case isTrue hfieldZero =>
      split
      case isTrue hzero => rwa [hfieldZero, hzero] at hparts
      case isFalse =>
        rw [hfieldZero] at hparts ⊢
        exact (pack_subnormal hwide _).trans hparts
    case isFalse => exact (pack_normal hfinite _ _).trans hparts

theorem ofBits_toBits (x : Float32) : Float32.ofBits x.toBits = x := by
  obtain ⟨bits, hvalid⟩ := x
  have hpack := pack_unpack (by decide) hvalid
  simp only [Float32.ofBits, Float32.toBits, Float32.Model.ofBits, Float32.Model.pack]
  congr 2
  exact UInt32.toBitVec_inj.mp hpack

/-- A double made from a valid encoding has that encoding, down to the canonical one of those for
what is no number. -/
theorem toBits_ofBits {bits : UInt64} (hvalid : Format.binary64.Valid bits.toBitVec) :
    (Float.ofBits bits).toBits = bits :=
  UInt64.toBitVec_inj.mp (pack_unpack (by decide) hvalid)

/-- The exponent field as arithmetic on the encoding, which is how widening and narrowing read
it. -/
theorem toNat_unpackExponent {format : Format} (bits : BitVec format.numBits) :
    (UnpackedFloat.unpackExponent bits).toNat =
      bits.toNat >>> format.mantissaBitsWithoutImplicit % 2 ^ format.exponentBits := by
  have hexponent := format.he
  have hwidth : format.mantissaBitsWithoutImplicit + format.exponentBits - 1 -
      format.mantissaBitsWithoutImplicit + 1 = format.exponentBits := by omega
  rw [UnpackedFloat.unpackExponent, BitVec.toNat_cast, BitVec.extractLsb_toNat, hwidth]

theorem toNat_unpackMantissa {format : Format} (bits : BitVec format.numBits) :
    (UnpackedFloat.unpackMantissa bits).toNat =
      bits.toNat % 2 ^ format.mantissaBitsWithoutImplicit := by
  have hmantissa := format.hm
  have hwidth : format.mantissaBitsWithoutImplicit - 1 - 0 + 1 =
      format.mantissaBitsWithoutImplicit := by omega
  rw [UnpackedFloat.unpackMantissa, BitVec.toNat_cast, BitVec.extractLsb_toNat, hwidth,
    Nat.shiftRight_zero]

/-- An encoding of what is no number is valid only if it is the canonical one. All other encodings
are valid. -/
theorem valid_iff {format : Format} {bits : BitVec format.numBits} :
    format.Valid bits ↔
      (bits.toNat >>> format.mantissaBitsWithoutImplicit % 2 ^ format.exponentBits =
          2 ^ format.exponentBits - 1 →
        bits.toNat % 2 ^ format.mantissaBitsWithoutImplicit ≠ 0 →
        bits.toNat = (UnpackedFloat.packedNaN format).toNat) := by
  have hfield : UnpackedFloat.unpackExponent bits = -1#_ ↔
      bits.toNat >>> format.mantissaBitsWithoutImplicit % 2 ^ format.exponentBits =
        2 ^ format.exponentBits - 1 := by
    rw [← toNat_unpackExponent, ← BitVec.toNat_inj, BitVec.neg_one_eq_allOnes,
      BitVec.toNat_allOnes]
  have hfraction : UnpackedFloat.unpackMantissa bits = 0#_ ↔
      bits.toNat % 2 ^ format.mantissaBitsWithoutImplicit = 0 := by
    rw [← toNat_unpackMantissa, ← BitVec.toNat_inj, BitVec.toNat_ofNat, Nat.zero_mod]
  constructor
  · intro hvalid htop hnonzero
    exact congrArg BitVec.toNat
      (hvalid.eq_packedNaN (hfield.mpr htop) fun hzero => hnonzero (hfraction.mp hzero))
  · intro hcanonical
    refine ⟨fun htop hnonzero => BitVec.eq_of_toNat_eq ?_⟩
    exact hcanonical (hfield.mp htop) fun hzero => hnonzero (hfraction.mpr hzero)

/-- What is a whole number of units is not rounded, so nothing that fits the narrow format is
changed on the way back. -/
theorem roundHalfEven_shiftLeft (n places : Nat) : roundHalfEven (n <<< places) places = n := by
  have hrest : n <<< places % 1 <<< places = 0 := by
    rw [Nat.shiftLeft_eq, Nat.one_shiftLeft, Nat.mul_mod_left]
  have hunit : 0 < 1 <<< places := by
    rw [Nat.one_shiftLeft]
    exact Nat.two_pow_pos places
  rw [roundHalfEven, hrest, if_pos hunit, Nat.shiftLeft_shiftRight]

/-- A finite magnitude that is widened is a finite one of the double format, and narrows to what it
was. Numbers below the normal ones of the single format become normal in the wide one, and have a
case of their own. -/
theorem narrowMagnitude_widenMagnitude {field fraction : Nat} (hfield : field < 255)
    (hfraction : fraction < 2 ^ 23) :
    ∃ wideField wideFraction, widenMagnitude field fraction = wideField <<< 52 + wideFraction ∧
      wideField < 2047 ∧ wideFraction < 2 ^ 52 ∧
      narrowMagnitude wideField wideFraction = field <<< 23 + fraction := by
  unfold widenMagnitude
  by_cases hsubnormal : field = 0
  · subst hsubnormal
    by_cases hzero : fraction = 0
    · subst hzero
      exact ⟨0, 0, rfl, by decide, by decide, by decide +kernel⟩
    · -- The leading bit of the fraction becomes the hidden bit.
      have hlog := (Nat.log2_eq_iff hzero).mp rfl
      have hsmall : fraction.log2 < 23 := (Nat.log2_lt hzero).mpr hfraction
      have hpow : 2 ^ fraction.log2 * 2 ^ (52 - fraction.log2) = 2 ^ 52 := by
        rw [← Nat.pow_add]
        congr 1
        omega
      have hlow : 2 ^ 52 ≤ fraction <<< (52 - fraction.log2) := by
        rw [Nat.shiftLeft_eq, ← hpow]
        exact Nat.mul_le_mul_right _ hlog.1
      have hhigh : fraction <<< (52 - fraction.log2) < 2 ^ 53 := by
        rw [Nat.shiftLeft_eq, Nat.pow_succ 2 52, ← hpow, Nat.mul_right_comm, ← Nat.pow_succ]
        exact Nat.mul_lt_mul_of_pos_right hlog.2 (Nat.two_pow_pos _)
      refine ⟨874 + fraction.log2, fraction <<< (52 - fraction.log2) - 2 ^ 52, ?_, by omega,
        by omega, ?_⟩
      · rw [if_pos rfl, if_neg hzero]
        omega
      · have hplaces : 29 + (897 - max (874 + fraction.log2) 1) = 52 - fraction.log2 := by omega
        have hsignificand : 1 <<< 52 + (fraction <<< (52 - fraction.log2) - 2 ^ 52) =
            fraction <<< (52 - fraction.log2) := by omega
        rw [narrowMagnitude, if_neg (by omega), hplaces, hsignificand, roundHalfEven_shiftLeft]
        omega
  · refine ⟨896 + field, fraction <<< 29, by rw [if_neg hsubnormal], by omega, by omega, ?_⟩
    have hplaces : 29 + (897 - max (896 + field) 1) = 29 := by omega
    have hsignificand : 1 <<< 52 + fraction <<< 29 = (1 <<< 23 + fraction) <<< 29 := by omega
    simp only [narrowMagnitude]
    rw [if_neg (by omega), hplaces, hsignificand, roundHalfEven_shiftLeft]
    omega

/-- What a double narrows to, by its parts. Infinities stay infinite, and what is no number becomes
the canonical one. -/
theorem narrow_ofBits {sign field fraction : Nat} (hsign : sign < 2) (hfield : field < 2048)
    (hfraction : fraction < 2 ^ 52)
    (hcanonical : field = 2047 → fraction ≠ 0 → sign = 0 ∧ fraction = 2 ^ 51) :
    narrow (Float.ofBits (sign <<< 63 + (field <<< 52 + fraction)).toUInt64) =
      Float32.ofBits (sign <<< 31 + if field = 2047 then
        255 <<< 23 + (if fraction = 0 then 0 else 2 ^ 22)
      else narrowMagnitude field fraction).toUInt32 := by
  have hbits : (sign <<< 63 + (field <<< 52 + fraction)).toUInt64.toNat =
      sign <<< 63 + (field <<< 52 + fraction) := by
    rw [Nat.toUInt64_eq, UInt64.toNat_ofNat']
    omega
  have hvalid : Format.binary64.Valid
      (sign <<< 63 + (field <<< 52 + fraction)).toUInt64.toBitVec := by
    rw [valid_iff]
    intro htop hnonzero
    have hnan : (UnpackedFloat.packedNaN .binary64).toNat = 2047 <<< 52 + 2 ^ 51 := by decide
    rw [UInt64.toNat_toBitVec, hbits] at htop hnonzero ⊢
    rw [hnan]
    simp only at htop hnonzero
    have := hcanonical (by omega) (by omega)
    omega
  have hsignOf : (sign <<< 63 + (field <<< 52 + fraction)) >>> 63 = sign := by omega
  have hfieldOf : (sign <<< 63 + (field <<< 52 + fraction)) >>> 52 % 2 ^ 11 = field := by omega
  have hfractionOf : (sign <<< 63 + (field <<< 52 + fraction)) % 2 ^ 52 = fraction := by omega
  simp only [narrow, toBits_ofBits hvalid, hbits, Nat.one_shiftLeft, hsignOf, hfieldOf,
    hfractionOf]

/-- Every single survives being widened and narrowed again, which is what a field of singles relies
on when its values are kept as doubles. -/
theorem narrow_widen (x : Float32) : narrow (widen x) = x := by
  have hself : Float32.ofBits x.toBits.toNat.toUInt32 = x := by
    rw [Nat.toUInt32_eq, UInt32.ofNat_toNat, ofBits_toBits]
  have hvalid : x.toBits.toNat >>> 23 % 2 ^ 8 = 255 → x.toBits.toNat % 2 ^ 23 ≠ 0 →
      x.toBits.toNat = 255 <<< 23 + 2 ^ 22 := valid_iff.mp x.toModel.valid
  have hbound : x.toBits.toNat < 2 ^ 32 := x.toBits.toNat_lt
  simp only [widen, Nat.one_shiftLeft]
  generalize x.toBits.toNat = bits at hself hvalid hbound
  have hparts : bits >>> 31 <<< 31 + ((bits >>> 23 % 2 ^ 8) <<< 23 + bits % 2 ^ 23) = bits := by
    omega
  by_cases htop : bits >>> 23 % 2 ^ 8 = 255
  · have hnumber : bits % 2 ^ 23 ≠ 0 → bits >>> 31 = 0 ∧ bits % 2 ^ 23 = 2 ^ 22 := by omega
    rw [if_pos htop]
    by_cases hzero : bits % 2 ^ 23 = 0
    · rw [if_pos hzero, narrow_ofBits (by omega) (by decide) (by decide) (by simp), if_pos rfl,
        if_pos rfl, ← hzero, ← htop, hparts, hself]
    · rw [if_neg hzero, narrow_ofBits (by omega) (by decide) (by decide)
        fun _ _ => ⟨(hnumber hzero).1, rfl⟩, if_pos rfl, if_neg (by decide), ← (hnumber hzero).2,
        ← htop, hparts, hself]
  · obtain ⟨wideField, wideFraction, hwide, hbelow, hfits, hnarrow⟩ :=
      @narrowMagnitude_widenMagnitude (bits >>> 23 % 2 ^ 8) (bits % 2 ^ 23) (by omega) (by omega)
    rw [if_neg htop, hwide, narrow_ofBits (by omega) (by omega) hfits (by omega),
      if_neg (by omega), hnarrow, hparts, hself]

end EntityWorld
