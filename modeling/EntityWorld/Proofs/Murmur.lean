import EntityWorld.Murmur
import Mathlib.Data.Nat.Digits.Lemmas
import Mathlib.Data.Nat.ModEq
import Mathlib.Data.Nat.Prime.Basic

namespace EntityWorld.Murmur

theorem toBitVec_rotateLeft {count : UInt64} (hpos : 0 < count.toNat) (hlt : count.toNat < 64)
    (word : UInt64) : (rotateLeft word count).toBitVec = word.toBitVec.rotateLeft count.toNat := by
  have hup : (count.toBitVec % 64).toNat = count.toNat % 64 := by
    simp
  have hdown : ((64 - count).toBitVec % 64).toNat = 64 - count.toNat % 64 := by
    simp
    omega
  rw [rotateLeft, UInt64.toBitVec_or, UInt64.toBitVec_shiftLeft, UInt64.toBitVec_shiftRight,
    BitVec.shiftLeft_eq', BitVec.ushiftRight_eq', hup, hdown, BitVec.rotateLeft_def]

/-- A rotation moves every bit to a place of its own, so the word can be told from what it
became. -/
theorem rotateLeft_injective (count : UInt64) (hpos : 0 < count.toNat) (hlt : count.toNat < 64) :
    Function.Injective (rotateLeft · count) := by
  intro word other heq
  have hrotated : word.toBitVec.rotateLeft count.toNat = other.toBitVec.rotateLeft count.toNat := by
    rw [← toBitVec_rotateLeft hpos hlt, ← toBitVec_rotateLeft hpos hlt]
    exact congrArg UInt64.toBitVec heq
  refine UInt64.toBitVec_inj.mp (BitVec.eq_of_getLsbD_eq fun place hplace => ?_)
  by_cases hstays : place + count.toNat < 64
  · have hbit := congrArg (BitVec.getLsbD · (place + count.toNat)) hrotated
    simpa [BitVec.getLsbD_rotateLeft, Nat.mod_eq_of_lt hlt, hstays, hplace] using hbit
  · have hbit := congrArg (BitVec.getLsbD · (place + count.toNat - 64)) hrotated
    have hlow : place + count.toNat - 64 < count.toNat := by omega
    have hback : 64 - count.toNat + (place + count.toNat - 64) = place := by omega
    simpa [BitVec.getLsbD_rotateLeft, Nat.mod_eq_of_lt hlt, hlow, hback] using hbit

/-- Odd numbers have inverses modulo a power of two, so multiplying by one loses nothing. -/
theorem mul_injective {factor : UInt64} (hodd : factor.toNat % 2 = 1) :
    Function.Injective fun word : UInt64 => word * factor := by
  intro word other heq
  have hcoprime : Nat.Coprime (2 ^ 64) factor.toNat :=
    (Nat.coprime_two_left.mpr (Nat.odd_iff.mpr hodd)).pow_left 64
  have hproducts : word.toNat * factor.toNat ≡ other.toNat * factor.toNat [MOD 2 ^ 64] := by
    simpa only [Nat.ModEq, UInt64.toNat_mul] using congrArg UInt64.toNat heq
  have hmod := hproducts.cancel_right_of_coprime hcoprime
  rw [Nat.ModEq, Nat.mod_eq_of_lt word.toNat_lt, Nat.mod_eq_of_lt other.toNat_lt] at hmod
  exact UInt64.toNat_inj.mp hmod

/-- Adding the upper bits of a word to its lower ones is undone by doing so once more: the upper
bits stay as they are. -/
theorem fold_involutive : Function.Involutive fun word : UInt64 => word ^^^ word >>> 33 := by
  intro word
  have hgone : word >>> 33 >>> 33 = 0 := by
    have hlt := word.toNat_lt
    apply UInt64.toNat_inj.mp
    simp only [UInt64.toNat_shiftRight, UInt64.reduceToNat, Nat.reduceMod,
      Nat.shiftRight_eq_div_pow, UInt64.toNat_zero]
    omega
  simp only [UInt64.shiftRight_xor, hgone, UInt64.xor_zero, UInt64.xor_assoc, UInt64.xor_self]

/-- Stirring multiplies by odd numbers and rotates, and each of these can be undone. The second kind
of stirring does the same with the factors exchanged. -/
theorem stirFirst_injective : Function.Injective stirFirst :=
  (mul_injective (by decide)).comp
    ((rotateLeft_injective 31 (by decide) (by decide)).comp (mul_injective (by decide)))

theorem stirSecond_injective : Function.Injective stirSecond :=
  (mul_injective (by decide)).comp
    ((rotateLeft_injective 33 (by decide) (by decide)).comp (mul_injective (by decide)))

/-- A word of zeros stays one. This is why bytes that are not there may count as zeros. -/
theorem stirFirst_zero : stirFirst 0 = 0 := by decide

theorem stirSecond_zero : stirSecond 0 = 0 := by decide

/-- The final mixing of a word folds and multiplies by odd numbers in turn. -/
theorem avalanche_injective : Function.Injective avalanche :=
  fold_involutive.injective.comp <| (mul_injective (by decide)).comp <|
    fold_involutive.injective.comp <| (mul_injective (by decide)).comp fold_involutive.injective

/-- Eight bytes at most are the digits of a word to base 256. With more of them the upper ones would
run over. -/
theorem toNat_littleEndian {bytes : List UInt8} (hlength : bytes.length ≤ 8) :
    (littleEndian bytes).toNat = Nat.ofDigits 256 (bytes.map UInt8.toNat) := by
  induction bytes with
  | nil => rfl
  | cons byte bytes ih =>
    have hrest := ih (by simp at hlength; omega)
    have hbyte := byte.toNat_lt
    have hlt : (littleEndian bytes).toNat < 2 ^ 56 := by
      have hdigits := Nat.ofDigits_lt_base_pow_length (b := 256) (l := bytes.map UInt8.toNat)
        (by decide) (by simpa using fun byte _ => byte.toNat_lt)
      have hpow : 256 ^ (bytes.map UInt8.toNat).length ≤ 256 ^ 7 :=
        Nat.pow_le_pow_right (by decide) (by simp at hlength ⊢; omega)
      omega
    have hshift : (littleEndian bytes <<< 8).toNat = (littleEndian bytes).toNat <<< 8 := by
      simp only [UInt64.toNat_shiftLeft, UInt64.reduceToNat, Nat.reduceMod, Nat.shiftLeft_eq]
      omega
    rw [littleEndian, UInt64.toNat_or, UInt8.toNat_toUInt64, hshift, Nat.or_comm,
      ← Nat.shiftLeft_add_eq_or_of_lt hbyte, List.map_cons, Nat.ofDigits_cons, ← hrest,
      Nat.shiftLeft_eq]
    ring

/-- Digits of the same number and length are the same, so the bytes are told by their word. -/
theorem littleEndian_injective {bytes others : List UInt8} (hlength : bytes.length = others.length)
    (hle : bytes.length ≤ 8) (heq : littleEndian bytes = littleEndian others) : bytes = others := by
  have hdigits := congrArg UInt64.toNat heq
  rw [toNat_littleEndian hle, toNat_littleEndian (hlength ▸ hle)] at hdigits
  refine List.map_injective_iff.mpr (fun _ _ => UInt8.toNat_inj.mp) ?_
  refine Nat.ofDigits_inj_of_len_eq (by decide) (by simpa using hlength) ?_ ?_ hdigits <;>
    simpa using fun byte _ => byte.toNat_lt

/-- Sixteen bytes at most are told by the two words that they are taken in as: eight of them by the
one, and the rest by the other. -/
theorem eq_of_words {bytes others : List UInt8} (hlength : bytes.length = others.length)
    (hle : bytes.length ≤ 16)
    (hlow : littleEndian (bytes.take 8) = littleEndian (others.take 8))
    (hhigh : littleEndian (bytes.drop 8) = littleEndian (others.drop 8)) : bytes = others := by
  have htake := littleEndian_injective (by simp [hlength]) (List.length_take_le 8 bytes) hlow
  have hdrop := littleEndian_injective (by simp [hlength]) (by rw [List.length_drop]; omega) hhigh
  rw [← List.take_append_drop 8 bytes, htake, hdrop, List.take_append_drop]

namespace Lanes

/-- What lanes come to when they take in two words, one equation for each lane. The first depends on
the lane before the second has changed. -/
theorem absorb_eq_iff {lanes other : Lanes} {low high otherLow otherHigh : UInt64} :
    lanes.absorb low high = other.absorb otherLow otherHigh ↔
      rotateLeft (lanes.first ^^^ stirFirst low) 27 + lanes.second =
          rotateLeft (other.first ^^^ stirFirst otherLow) 27 + other.second ∧
        lanes.second ^^^ stirSecond high = other.second ^^^ stirSecond otherHigh := by
  have hscale : Function.Injective fun word : UInt64 => word * 5 := mul_injective (by decide)
  have hrotate := rotateLeft_injective 31 (by decide) (by decide)
  simp only [absorb, mk.injEq, UInt64.add_left_inj]
  constructor
  · rintro ⟨hfirst, hsecond⟩
    rw [hfirst] at hsecond
    exact ⟨hscale hfirst, hrotate ((UInt64.add_left_inj _).mp (hscale hsecond))⟩
  · rintro ⟨hfirst, hsecond⟩
    rw [hfirst, hsecond]
    exact ⟨rfl, rfl⟩

/-- Taking in the same words keeps different lanes apart: the second lane is told by its own result,
and then the first by the other. -/
theorem absorb_injective (low high : UInt64) : Function.Injective (absorb · low high) := by
  intro lanes other heq
  obtain ⟨hfirst, hsecond⟩ := absorb_eq_iff.mp heq
  have hsecond : lanes.second = other.second := (UInt64.xor_left_inj _).mp hsecond
  rw [hsecond, UInt64.add_left_inj] at hfirst
  have hfirst := rotateLeft_injective 27 (by decide) (by decide) hfirst
  cases lanes
  cases other
  simp_all [UInt64.xor_left_inj]

/-- The same lanes take in different words differently. The second lane tells the second word, and
then the first lane tells the first. -/
theorem absorb_words {lanes : Lanes} {low high otherLow otherHigh : UInt64}
    (heq : lanes.absorb low high = lanes.absorb otherLow otherHigh) :
    low = otherLow ∧ high = otherHigh := by
  obtain ⟨hfirst, hsecond⟩ := absorb_eq_iff.mp heq
  rw [UInt64.add_left_inj] at hfirst
  have hfirst := rotateLeft_injective 27 (by decide) (by decide) hfirst
  exact ⟨stirFirst_injective ((UInt64.xor_right_inj _).mp hfirst),
    stirSecond_injective ((UInt64.xor_right_inj _).mp hsecond)⟩

theorem absorbTail_injective (bytes : List UInt8) : Function.Injective (absorbTail · bytes) := by
  rintro ⟨first, second⟩ ⟨otherFirst, otherSecond⟩ heq
  simpa [absorbTail, UInt64.xor_left_inj] using heq

/-- The same lanes take in different ends of one length differently. Ends of different lengths might
count the same, since missing bytes are zeros. -/
theorem absorbTail_bytes {lanes : Lanes} {bytes others : List UInt8}
    (hlength : bytes.length = others.length) (hlt : bytes.length < 16)
    (heq : lanes.absorbTail bytes = lanes.absorbTail others) : bytes = others := by
  obtain ⟨hlow, hhigh⟩ := mk.inj heq
  have hlow := stirFirst_injective ((UInt64.xor_right_inj _).mp hlow)
  have hhigh := stirSecond_injective ((UInt64.xor_right_inj _).mp hhigh)
  exact eq_of_words hlength hlt.le hlow hhigh

/-- Adding each lane to the other in turn is undone by subtracting in the other order. -/
theorem cross_injective : Function.Injective cross := by
  rintro ⟨first, second⟩ ⟨otherFirst, otherSecond⟩ heq
  obtain ⟨hfirst, hsecond⟩ := mk.inj heq
  rw [hfirst, UInt64.add_left_inj] at hsecond
  rw [hsecond, UInt64.add_left_inj] at hfirst
  exact congrArg₂ mk hfirst hsecond

theorem finish_injective (length : UInt64) : Function.Injective (finish · length) := by
  intro lanes other heq
  obtain ⟨hfirst, hsecond⟩ := mk.inj (cross_injective heq)
  have hcrossed := cross_injective <|
    (congrArg₂ mk (avalanche_injective hfirst) (avalanche_injective hsecond))
  cases lanes
  cases other
  simpa [UInt64.xor_left_inj] using hcrossed

theorem absorbAll_of_lt (lanes : Lanes) {bytes : List UInt8} (hlt : bytes.length < 16) :
    lanes.absorbAll bytes = lanes.absorbTail bytes := by
  have hnone : bytes.drop 15 = [] := List.drop_eq_nil_of_le (by omega)
  rw [absorbAll]
  split
  case h_1 => rfl
  case h_2 hsome => rw [hnone] at hsome; cases hsome

/-- A block of sixteen bytes is taken in before all that follows it. With the induction over blocks
this is all that the recursion does. -/
theorem absorbAll_append (lanes : Lanes) {block : List UInt8} (hblock : block.length = 16)
    (rest : List UInt8) :
    lanes.absorbAll (block ++ rest) =
      (lanes.absorb (littleEndian (block.take 8)) (littleEndian (block.drop 8))).absorbAll rest := by
  have hlast : (block ++ rest).drop 16 = rest := List.drop_left' hblock
  rw [absorbAll]
  split
  case h_1 hnone =>
    have hlength := congrArg List.length hnone
    simp [hblock] at hlength
    omega
  case h_2 byte later hsome =>
    have hlater : later = rest := by
      rw [← hlast, ← List.tail_drop, hsome, List.tail_cons]
    have hlow : (block ++ rest).take 8 = block.take 8 := by
      rw [List.take_append_of_le_length (by omega)]
    have hhigh : ((block ++ rest).drop 8).take 8 = block.drop 8 := by
      rw [List.drop_append_of_le_length (by omega), List.take_left' (by simp [hblock])]
    rw [hlater, hlow, hhigh]

end Lanes

/-- Byte strings are made of blocks of sixteen bytes and fewer bytes at their end. The recursion of
the digest follows the same cases. -/
theorem blocks_induction {motive : List UInt8 → Prop}
    (short : ∀ bytes, bytes.length < 16 → motive bytes)
    (append : ∀ block rest, block.length = 16 → motive rest → motive (block ++ rest))
    (bytes : List UInt8) : motive bytes := by
  by_cases hlt : bytes.length < 16
  · exact short bytes hlt
  · rw [← List.take_append_drop 16 bytes]
    exact append _ _ (by simp; omega) (blocks_induction short append (bytes.drop 16))
termination_by bytes.length
decreasing_by simp only [List.length_drop]; omega

/-- The same bytes keep different lanes apart, block by block. So nothing of the seed is lost on the
way. -/
theorem Lanes.absorbAll_injective (bytes : List UInt8) :
    Function.Injective (Lanes.absorbAll · bytes) := by
  induction bytes using blocks_induction with
  | short bytes hlt =>
    simp only [absorbAll_of_lt _ hlt]
    exact absorbTail_injective bytes
  | append block rest hblock ih =>
    simp only [absorbAll_append _ hblock]
    exact ih.comp (absorb_injective _ _)

end EntityWorld.Murmur
