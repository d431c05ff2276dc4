import EntityWorld.Key
import EntityWorld.Proofs.Murmur

namespace EntityWorld.Murmur

namespace Reference

/-- The two halves of the digest, and the two words that are being taken in, under the names that
the published description gives them. -/
structure Registers where
  h1 : UInt64
  h2 : UInt64
  k1 : UInt64 := 0
  k2 : UInt64 := 0

/-- The first of the two factors. -/
def c1 : UInt64 := 0x87c37b91114253d5

/-- The second of the two factors. -/
def c2 : UInt64 := 0x4cf5ad432745937f

/-- A word rotated to the left. -/
def rotl (word : UInt64) (count : Nat) : UInt64 :=
  ⟨word.toBitVec.rotateLeft count⟩

/-- The final mixing of one half. -/
def fmix (word : UInt64) : UInt64 :=
  let word := word ^^^ (word >>> 33)
  let word := word * 0xff51afd7ed558ccd
  let word := word ^^^ (word >>> 33)
  let word := word * 0xc4ceb9fe1a85ec53
  word ^^^ (word >>> 33)

/-- The eight bytes from a place on, the least significant first. -/
def block (bytes : List UInt8) (place : Nat) : UInt64 :=
  .ofNat (Nat.ofDigits 256 (((bytes.drop place).take 8).map UInt8.toNat))

/-- Mixes the first word into the first half. -/
def mix1 (registers : Registers) : Registers :=
  { registers with h1 := registers.h1 ^^^ (rotl (registers.k1 * c1) 31 * c2) }

/-- Mixes the second word into the second half. -/
def mix2 (registers : Registers) : Registers :=
  { registers with h2 := registers.h2 ^^^ (rotl (registers.k2 * c2) 33 * c1) }

/-- Takes in one pair of blocks. -/
def round (bytes : List UInt8) (registers : Registers) (index : Nat) : Registers :=
  let registers :=
    { registers with k1 := block bytes (16 * index), k2 := block bytes (16 * index + 8) }
  let registers := mix1 registers
  let registers := { registers with h1 := rotl registers.h1 27 }
  let registers := { registers with h1 := registers.h1 + registers.h2 }
  let registers := { registers with h1 := registers.h1 * 5 + 0x52dce729 }
  let registers := mix2 registers
  let registers := { registers with h2 := rotl registers.h2 31 }
  let registers := { registers with h2 := registers.h2 + registers.h1 }
  { registers with h2 := registers.h2 * 5 + 0x38495ab5 }

/-- The cases of a switch with their labels, in the order in which control falls through them.
Entering at a label runs its case and all that follow. -/
abbrev Switch := List (Nat × (Registers → Registers))

/-- Enters a switch at a label and falls through to its end. -/
def Switch.enter (switch : Switch) (label : Nat) (registers : Registers) : Registers :=
  (switch.dropWhile (·.1 ≠ label)).foldl (fun registers entry => entry.2 registers) registers

/-- Takes in what `tail` has, as many bytes as the label says. -/
def tailSwitch (tail : Nat → UInt64) : Switch :=
  [ (15, fun registers => { registers with k2 := registers.k2 ^^^ (tail 14 <<< 48) }),
    (14, fun registers => { registers with k2 := registers.k2 ^^^ (tail 13 <<< 40) }),
    (13, fun registers => { registers with k2 := registers.k2 ^^^ (tail 12 <<< 32) }),
    (12, fun registers => { registers with k2 := registers.k2 ^^^ (tail 11 <<< 24) }),
    (11, fun registers => { registers with k2 := registers.k2 ^^^ (tail 10 <<< 16) }),
    (10, fun registers => { registers with k2 := registers.k2 ^^^ (tail 9 <<< 8) }),
    (9, fun registers => mix2 { registers with k2 := registers.k2 ^^^ (tail 8 <<< 0) }),
    (8, fun registers => { registers with k1 := registers.k1 ^^^ (tail 7 <<< 56) }),
    (7, fun registers => { registers with k1 := registers.k1 ^^^ (tail 6 <<< 48) }),
    (6, fun registers => { registers with k1 := registers.k1 ^^^ (tail 5 <<< 40) }),
    (5, fun registers => { registers with k1 := registers.k1 ^^^ (tail 4 <<< 32) }),
    (4, fun registers => { registers with k1 := registers.k1 ^^^ (tail 3 <<< 24) }),
    (3, fun registers => { registers with k1 := registers.k1 ^^^ (tail 2 <<< 16) }),
    (2, fun registers => { registers with k1 := registers.k1 ^^^ (tail 1 <<< 8) }),
    (1, fun registers => mix1 { registers with k1 := registers.k1 ^^^ (tail 0 <<< 0) }) ]

/-- Takes in all bytes, of which there are `length`: whole pairs of blocks, and then the others. -/
def absorb (bytes : List UInt8) (length : Nat) (seed : UInt32) : Registers :=
  let blocks := length / 16
  let registers : Registers :=
    (List.range blocks).foldl (round bytes) { h1 := seed.toUInt64, h2 := seed.toUInt64 }
  let tail (place : Nat) : UInt64 := (bytes[16 * blocks + place]?.getD 0).toUInt64
  (tailSwitch tail).enter (length % 16) { registers with k1 := 0, k2 := 0 }

/-- What is done with the halves after all bytes, when the length comes in. -/
def finalize (registers : Registers) (length : UInt64) : UInt64 × UInt64 :=
  let h1 := registers.h1 ^^^ length
  let h2 := registers.h2 ^^^ length
  let h1 := h1 + h2
  let h2 := h2 + h1
  let h1 := fmix h1
  let h2 := fmix h2
  let h1 := h1 + h2
  let h2 := h2 + h1
  (h1, h2)

/-- The two halves of the digest. The length is a signed number of 32 bits, extended to 64. -/
def digest (bytes : List UInt8) (seed : UInt32) : UInt64 × UInt64 :=
  let length : Int32 := .ofNat bytes.length
  finalize (absorb bytes length.toNatClampNeg seed) length.toInt64.toUInt64

/-- The halves of a digest as lanes. -/
def Registers.lanes (registers : Registers) : Lanes :=
  ⟨registers.h1, registers.h2⟩

/-- Both spellings of a rotation mean the same, for the counts that occur. -/
theorem rotl_eq {count : UInt64} (hpos : 0 < count.toNat) (hlt : count.toNat < 64)
    (word : UInt64) : rotl word count.toNat = rotateLeft word count :=
  UInt64.toBitVec_inj.mp (toBitVec_rotateLeft hpos hlt word).symm

theorem block_eq (bytes : List UInt8) (place : Nat) :
    block bytes place = littleEndian ((bytes.drop place).take 8) := by
  rw [block, ← toNat_littleEndian (List.length_take_le 8 _), UInt64.ofNat_toNat]

/-- The first word is stirred as published, with the factors in this order. -/
theorem stirFirst_eq (word : UInt64) : stirFirst word = rotl (word * c1) 31 * c2 := by
  rw [stirFirst, ← rotl_eq (by decide) (by decide)]
  rfl

/-- The second word is stirred as published, with the factors in the other order. -/
theorem stirSecond_eq (word : UInt64) : stirSecond word = rotl (word * c2) 33 * c1 := by
  rw [stirSecond, ← rotl_eq (by decide) (by decide)]
  rfl

theorem lanes_round (bytes : List UInt8) (registers : Registers) (index : Nat) :
    (round bytes registers index).lanes =
      registers.lanes.absorb (block bytes (16 * index)) (block bytes (16 * index + 8)) := by
  rw [Lanes.absorb, stirFirst_eq, stirSecond_eq, ← @rotl_eq 27 (by decide) (by decide),
    ← @rotl_eq 31 (by decide) (by decide)]
  rfl

/-- A block that ends before another byte string begins is not touched by it. -/
theorem block_append_left {first : List UInt8} {place : Nat} (hplace : place + 8 ≤ first.length)
    (rest : List UInt8) : block (first ++ rest) place = block first place := by
  rw [block, block, List.drop_append_of_le_length (by omega),
    List.take_append_of_le_length (by rw [List.length_drop]; omega)]

theorem block_append_right (first rest : List UInt8) (place : Nat) :
    block (first ++ rest) (first.length + place) = block rest place := by
  rw [block, block, List.drop_length_add_append]

/-- Behind a first pair of blocks the rounds are those of the rest, numbered one less. -/
theorem round_append {first : List UInt8} (hfirst : first.length = 16) (rest : List UInt8)
    (registers : Registers) (index : Nat) :
    round (first ++ rest) registers (index + 1) = round rest registers index := by
  have hlow := block_append_right first rest (16 * index)
  have hhigh := block_append_right first rest (16 * index + 8)
  rw [hfirst, Nat.add_comm] at hlow
  rw [hfirst, Nat.add_comm, Nat.add_right_comm] at hhigh
  simp only [round, Nat.mul_add_one, hlow, hhigh]

/-- All rounds together take in what comes before the end. The rounds are numbered and the recursion
drops blocks off the front, so the induction is over blocks. -/
theorem absorbTail_body (bytes : List UInt8) (registers : Registers) :
    ((List.range (bytes.length / 16)).foldl (round bytes) registers).lanes.absorbTail
        (bytes.drop (16 * (bytes.length / 16))) =
      registers.lanes.absorbAll bytes := by
  induction bytes using blocks_induction generalizing registers with
  | short bytes hlt =>
    rw [Nat.div_eq_of_lt hlt, Lanes.absorbAll_of_lt _ hlt]
    rfl
  | append first rest hfirst ih =>
    have hblocks : (first ++ rest).length / 16 = rest.length / 16 + 1 := by
      rw [List.length_append]
      omega
    have hrest : 16 * (rest.length / 16 + 1) = first.length + 16 * (rest.length / 16) := by omega
    have hrounds (registers : Registers) :
        ((List.range (rest.length / 16)).map (· + 1)).foldl (round (first ++ rest)) registers =
          (List.range (rest.length / 16)).foldl (round rest) registers := by
      rw [List.foldl_map]
      exact congrArg₂ (fun step start => List.foldl step start _)
        (funext₂ fun _ _ => round_append hfirst rest _ _) rfl
    have hlow : block (first ++ rest) (16 * 0) = littleEndian (first.take 8) := by
      rw [block_append_left (by omega), block_eq, Nat.mul_zero, List.drop_zero]
    have hhigh : block (first ++ rest) (16 * 0 + 8) = littleEndian (first.drop 8) := by
      rw [block_append_left (by omega), block_eq, List.take_of_length_le]
      rw [List.length_drop]
      omega
    rw [hblocks, List.range_succ_eq_map, List.foldl_cons, hrest, List.drop_length_add_append, hrounds,
      ih, lanes_round, hlow, hhigh, Lanes.absorbAll_append _ hfirst]

/-- A byte and what is shifted past it have no bit in common, so adding them is joining their
bits. -/
theorem littleEndian_cons (byte : UInt8) (bytes : List UInt8) :
    littleEndian (byte :: bytes) = byte.toUInt64 ^^^ littleEndian bytes <<< 8 := by
  rw [littleEndian]
  refine UInt64.toBitVec_inj.mp (BitVec.eq_of_getLsbD_eq fun place _ => ?_)
  by_cases hbyte : place < 8
  · simp [hbyte]
  · have hnone : byte.toBitVec.getLsbD place = false := BitVec.getLsbD_of_ge _ _ (by omega)
    simp [hnone]

/-- Bytes put together one by one, the last first. -/
def gather (tail : Nat → UInt64) (count : Nat) : UInt64 :=
  (List.range count).foldr (fun place word => word ^^^ (tail place <<< .ofNat (8 * place))) 0

/-- Within the width of a word, bytes that stand one place further up are shifted as a whole. Beyond
it the uppermost would be lost. -/
theorem foldr_shiftLeft (tail : Nat → UInt64) {places : List Nat}
    (hplaces : ∀ place ∈ places, place < 7) :
    places.foldr (fun place word => word ^^^ (tail place <<< .ofNat (8 * (place + 1)))) 0 =
      places.foldr (fun place word => word ^^^ (tail place <<< .ofNat (8 * place))) 0 <<< 8 := by
  induction places with
  | nil => rfl
  | cons place places ih =>
    obtain ⟨hplace, hrest⟩ := List.forall_mem_cons.mp hplaces
    have hfurther : (.ofNat (8 * (place + 1)) : UInt64) = .ofNat (8 * place) + 8 := by
      rw [Nat.mul_add_one, UInt64.ofNat_add]
      rfl
    have hbound : (UInt64.ofNat (8 * place)).toNat + (8 : UInt64).toNat < 64 := by
      rw [UInt64.toNat_ofNat_of_lt' (Nat.lt_of_lt_of_le (m := 64) (by omega) (by decide))]
      exact Nat.add_lt_of_lt_sub (c := 64) (b := 8) (by omega)
    rw [List.foldr_cons, List.foldr_cons, ih hrest, UInt64.shiftLeft_xor, hfurther,
      UInt64.shiftLeft_add_of_toNat_lt hbound]

/-- One byte more in front shifts all others up. The count stays within a word, so none is shifted
out. -/
theorem gather_succ (tail : Nat → UInt64) {count : Nat} (hlt : count < 8) :
    gather tail (count + 1) = tail 0 ^^^ gather (fun place => tail (place + 1)) count <<< 8 := by
  have hplaces (place : Nat) (hplace : place ∈ List.range count) : place < 7 := by
    have := List.mem_range.mp hplace
    omega
  rw [gather, List.range_succ_eq_map, List.foldr_cons, List.foldr_map, Nat.mul_zero,
    UInt64.xor_comm]
  exact congrArg₂ _ UInt64.shiftLeft_zero (foldr_shiftLeft (fun place => tail (place + 1)) hplaces)

theorem gather_eq {bytes : List UInt8} (hle : bytes.length ≤ 8) {tail : Nat → UInt64}
    (htail : ∀ (place : Nat) (h : place < bytes.length), tail place = bytes[place].toUInt64) :
    gather tail bytes.length = littleEndian bytes := by
  induction bytes generalizing tail with
  | nil => rfl
  | cons byte bytes ih =>
    rw [List.length_cons] at hle
    rw [littleEndian_cons, List.length_cons, gather_succ tail (by omega), htail 0 (by simp),
      ih (by omega) fun place hplace => htail (place + 1) (by simpa using hplace)]
    rfl

/-- Falling through from a label gathers as many bytes as it says, the first eight apart from the
others. There are sixteen labels, and each is run on its own. -/
theorem enter_tailSwitch (tail : Nat → UInt64) (h1 h2 : UInt64) {count : Nat} (hlt : count < 16) :
    ((tailSwitch tail).enter count { h1, h2 }).lanes =
      ⟨h1 ^^^ stirFirst (gather tail (min 8 count)),
        h2 ^^^ stirSecond (gather (fun place => tail (8 + place)) (count - 8))⟩ := by
  rcases Nat.lt_or_ge 8 count with hlong | hshort
  · rw [Nat.min_eq_left hlong.le, stirFirst_eq, stirSecond_eq]
    interval_cases count <;> rfl
  · -- The second word is not mixed in at all, which is as good as mixing in zero.
    have hnone : gather (fun place => tail (8 + place)) 0 = 0 := rfl
    rw [Nat.min_eq_right hshort, Nat.sub_eq_zero_of_le hshort, hnone, stirSecond_zero,
      UInt64.xor_zero]
    rcases Nat.eq_zero_or_pos count with rfl | hpos
    · have hnone : gather tail 0 = 0 := rfl
      rw [hnone, stirFirst_zero, UInt64.xor_zero]
      rfl
    · rw [stirFirst_eq]
      interval_cases count <;> rfl

/-- The switch takes in the bytes at the end as the lanes do: what it gathers byte by byte is the
word that they take in as a whole. -/
theorem absorbTail_eq (h1 h2 : UInt64) {bytes : List UInt8} (hlt : bytes.length < 16)
    {tail : Nat → UInt64}
    (htail : ∀ (place : Nat) (h : place < bytes.length), tail place = bytes[place].toUInt64) :
    ((tailSwitch tail).enter bytes.length { h1, h2 }).lanes = Lanes.absorbTail ⟨h1, h2⟩ bytes := by
  have hlow : gather tail (bytes.take 8).length = littleEndian (bytes.take 8) :=
    gather_eq (List.length_take_le 8 bytes) fun place hplace => by
      rw [List.getElem_take, htail place]
  have hhigh : gather (fun place => tail (8 + place)) (bytes.drop 8).length =
      littleEndian (bytes.drop 8) :=
    gather_eq (by rw [List.length_drop]; omega) fun place hplace => by
      rw [List.getElem_drop, htail (8 + place)]
  rw [enter_tailSwitch tail h1 h2 hlt, Lanes.absorbTail, ← hlow, ← hhigh, List.length_take,
    List.length_drop]

/-- Rounds and switch together take in all bytes, first whole pairs of blocks and then what is
left. -/
theorem lanes_absorb (bytes : List UInt8) (seed : UInt32) :
    (absorb bytes bytes.length seed).lanes =
      Lanes.absorbAll ⟨seed.toUInt64, seed.toUInt64⟩ bytes := by
  have hend : (bytes.drop (16 * (bytes.length / 16))).length = bytes.length % 16 := by
    rw [List.length_drop]
    omega
  refine Eq.trans ?_ (absorbTail_body bytes { h1 := seed.toUInt64, h2 := seed.toUInt64 })
  rw [absorb, ← hend]
  refine absorbTail_eq _ _ (by omega) fun place hplace => ?_
  rw [List.getElem_drop, List.getElem?_eq_getElem, Option.getD_some]

theorem finish_lanes (registers : Registers) (length : UInt64) :
    registers.lanes.finish length =
      ⟨(finalize registers length).1, (finalize registers length).2⟩ :=
  rfl

end Reference

/-- The digest is the published one, for all numbers of bytes that a signed number of 32 bits can
hold. As a number it has the first half in its lower bits. -/
theorem digest_eq_reference {bytes : List UInt8} (hlength : bytes.length < 2 ^ 31) (seed : UInt32) :
    let published := Reference.digest bytes seed
    digest bytes seed = ⟨published.1, published.2⟩ ∧
      Key.toNat ⟨(digest bytes seed).first, (digest bytes seed).second⟩ =
        published.1.toNat + 2 ^ 64 * published.2.toNat := by
  intro published
  have hclamp : (Int32.ofNat bytes.length).toNatClampNeg = bytes.length :=
    Int32.toNatClampNeg_ofNat_of_lt hlength
  have hextended : (Int32.ofNat bytes.length).toInt64.toUInt64 = bytes.length.toUInt64 := by
    have hle : (bytes.length : Int) ≤ Int32.maxValue.toInt :=
      Int.le_sub_one_of_lt (Int.ofNat_lt.mpr hlength)
    rw [Int32.toInt64_ofNat' hle, Int64.toUInt64_ofNat']
  have heq : digest bytes seed = ⟨published.1, published.2⟩ := by
    simp only [published, Reference.digest, hclamp, hextended]
    rw [digest, ← Reference.lanes_absorb, Reference.finish_lanes]
  refine ⟨heq, ?_⟩
  rw [heq, Key.toNat, Nat.shiftLeft_eq]
  ring

/-- A text of two blocks and eleven bytes more, for which the switch is entered in its second
half. -/
theorem digest_eq_reference_fox :
    let bytes := "The quick brown fox jumps over the lazy dog".toUTF8.data.toList
    bytes.length = 43 ∧ Reference.digest bytes 0 = (0xe34bbc7bbc071b6c, 0x7a433ca9c49a9347) ∧
      Key.toNat ⟨(digest bytes 0).first, (digest bytes 0).second⟩ =
        0x7a433ca9c49a9347e34bbc7bbc071b6c := by
  intro bytes
  have hlength : bytes.length = 43 := by decide +kernel
  have hpublished : Reference.digest bytes 0 = (0xe34bbc7bbc071b6c, 0x7a433ca9c49a9347) := by
    decide +kernel
  have hnumber := (@digest_eq_reference bytes (by omega) 0).2
  rw [hpublished] at hnumber
  exact ⟨hlength, hpublished, hnumber⟩

end EntityWorld.Murmur
