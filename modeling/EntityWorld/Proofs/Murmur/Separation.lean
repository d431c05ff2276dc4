import EntityWorld.Key
import EntityWorld.Proofs.Murmur
import EntityWorld.Proofs.Utf8

namespace EntityWorld.Murmur

/-- Byte strings of one length with the same bytes outside one of their blocks of sixteen bytes, of
which the last may be shorter. -/
structure AgreeOutside (block : Nat) (bytes others : List UInt8) : Prop where
  length : bytes.length = others.length
  same : ∀ place, place / 16 ≠ block → bytes[place]? = others[place]?

namespace AgreeOutside

/-- Places beyond the end agree anyway, so only finitely many are to be compared. -/
theorem iff_forall_lt {block : Nat} {bytes others : List UInt8} :
    AgreeOutside block bytes others ↔ bytes.length = others.length ∧
      ∀ place < bytes.length, place / 16 ≠ block → bytes[place]? = others[place]? := by
  refine ⟨fun hagree => ⟨hagree.length, fun place _ => hagree.same place⟩, ?_⟩
  rintro ⟨hlength, hsame⟩
  refine ⟨hlength, fun place hplace => ?_⟩
  by_cases hlt : place < bytes.length
  · exact hsame place hlt hplace
  · rw [List.getElem?_eq_none (by omega), List.getElem?_eq_none (by omega)]

instance (block : Nat) (bytes others : List UInt8) : Decidable (AgreeOutside block bytes others) :=
  decidable_of_iff _ iff_forall_lt.symm

/-- There is only one block in sixteen bytes or less, so such byte strings agree outside of it. -/
theorem of_le {bytes others : List UInt8} (hlength : bytes.length = others.length)
    (hle : bytes.length ≤ 16) : AgreeOutside 0 bytes others := by
  refine ⟨hlength, fun place hplace => ?_⟩
  rw [List.getElem?_eq_none (by omega), List.getElem?_eq_none (by omega)]

section

variable {first other rest later : List UInt8} (hfirst : first.length = 16)
  (hother : other.length = 16)

include hfirst hother

theorem getElem?_rest {block place : Nat} (hblock : (16 + place) / 16 ≠ block)
    (hagree : AgreeOutside block (first ++ rest) (other ++ later)) : rest[place]? = later[place]? := by
  have hbyte := hagree.same (16 + place) hblock
  rwa [List.getElem?_append_right (by omega), List.getElem?_append_right (by omega), hfirst, hother,
    Nat.add_sub_cancel_left] at hbyte

theorem rest_eq (hagree : AgreeOutside 0 (first ++ rest) (other ++ later)) : rest = later :=
  List.ext_getElem? fun _ => hagree.getElem?_rest hfirst hother (by omega)

theorem first_eq {block : Nat} (hagree : AgreeOutside (block + 1) (first ++ rest) (other ++ later)) :
    first = other := by
  refine List.ext_getElem (hfirst.trans hother.symm) fun place hplace hbound => ?_
  have hbyte := hagree.same place (by omega)
  rwa [List.getElem?_append_left hplace, List.getElem?_append_left hbound,
    List.getElem?_eq_getElem hplace, List.getElem?_eq_getElem hbound, Option.some_inj] at hbyte

/-- If a later block may differ, it is one of those behind the first, numbered one less. -/
theorem behind {block : Nat} (hagree : AgreeOutside (block + 1) (first ++ rest) (other ++ later)) :
    AgreeOutside block rest later := by
  refine ⟨?_, fun place hplace => hagree.getElem?_rest hfirst hother (by omega)⟩
  have hlength := hagree.length
  rw [List.length_append, List.length_append] at hlength
  omega

end

end AgreeOutside

/-- The same lanes take in differently what differs within one block: the block leaves different
lanes behind, and what follows it keeps them apart. -/
theorem Lanes.absorbAll_bytes {lanes : Lanes} {block : Nat} {bytes others : List UInt8}
    (hagree : AgreeOutside block bytes others)
    (heq : lanes.absorbAll bytes = lanes.absorbAll others) : bytes = others := by
  induction bytes using blocks_induction generalizing lanes block others with
  | short bytes hlt =>
    rw [absorbAll_of_lt lanes hlt, absorbAll_of_lt lanes (hagree.length ▸ hlt)] at heq
    exact absorbTail_bytes hagree.length hlt heq
  | append first rest hfirst ih =>
    obtain ⟨other, later, hother, rfl⟩ :
        ∃ other later, other.length = 16 ∧ others = other ++ later := by
      have hlength := hagree.length
      rw [List.length_append] at hlength
      refine ⟨others.take 16, others.drop 16, ?_, (List.take_append_drop 16 others).symm⟩
      rw [List.length_take]
      omega
    rw [absorbAll_append lanes hfirst, absorbAll_append lanes hother] at heq
    cases block with
    | zero =>
      obtain rfl := hagree.rest_eq hfirst hother
      obtain ⟨hlow, hhigh⟩ := absorb_words (absorbAll_injective rest heq)
      rw [eq_of_words (hfirst.trans hother.symm) hfirst.le hlow hhigh]
    | succ block =>
      obtain rfl := hagree.first_eq hfirst hother
      rw [ih (hagree.behind hfirst hother) heq]

/-- A byte string has different digests under different seeds. The lanes start from the seed, and
nothing on the way brings them together. -/
theorem digest_seed {bytes : List UInt8} {seed other : UInt32}
    (heq : digest bytes seed = digest bytes other) : seed = other := by
  have hlanes := Lanes.absorbAll_injective bytes (Lanes.finish_injective _ heq)
  have hword := congrArg UInt64.toNat (Lanes.mk.inj hlanes).1
  exact UInt32.toNat_inj.mp (by simpa using hword)

/-- Under one seed byte strings that differ, but within one block only, have different digests. Two
blocks might make up for each other, and a single one cannot. -/
theorem digest_bytes {seed : UInt32} {block : Nat} {bytes others : List UInt8}
    (hagree : AgreeOutside block bytes others) (heq : digest bytes seed = digest others seed) :
    bytes = others := by
  rw [digest, digest, hagree.length] at heq
  exact Lanes.absorbAll_bytes hagree (Lanes.finish_injective _ heq)

/-- Keys are told by the digests of the bytes of the names: the halves of a key are those of a
digest. -/
theorem ofName_eq_iff {name other : String} {seed otherSeed : UInt32} :
    Key.ofName name seed = Key.ofName other otherSeed ↔
      digest name.toUTF8.data.toList seed = digest other.toUTF8.data.toList otherSeed := by
  simp only [Key.ofName, Key.mk.injEq]
  generalize digest _ seed = lanes
  generalize digest _ otherSeed = others
  cases lanes
  cases others
  simp

/-- A byte string has different digests under different seeds, and under one seed byte strings of
one length have different digests if they differ, but within one block only. So a name has another
key under each seed, and names of one length never share a key if they have sixteen bytes at most,
or differ within one block only. -/
theorem digest_separates (seed : UInt32) :
    (∀ (bytes : List UInt8) (other : UInt32),
      digest bytes seed = digest bytes other ↔ seed = other) ∧
    (∀ (block : Nat) (bytes others : List UInt8), AgreeOutside block bytes others →
      (digest bytes seed = digest others seed ↔ bytes = others)) ∧
    (∀ (name : String) (other : UInt32),
      Key.ofName name seed = Key.ofName name other ↔ seed = other) ∧
    ∀ name other : String, name.utf8ByteSize = other.utf8ByteSize →
      (name.utf8ByteSize ≤ 16 ∨
        ∃ block, AgreeOutside block name.toUTF8.data.toList other.toUTF8.data.toList) →
      (Key.ofName name seed = Key.ofName other seed ↔ name = other) := by
  have hbytes (block : Nat) (bytes others : List UInt8) (hagree : AgreeOutside block bytes others) :
      digest bytes seed = digest others seed ↔ bytes = others :=
    ⟨digest_bytes hagree, fun heq => heq ▸ rfl⟩
  have hseeds (bytes : List UInt8) (other : UInt32) :
      digest bytes seed = digest bytes other ↔ seed = other :=
    ⟨digest_seed, fun heq => heq ▸ rfl⟩
  refine ⟨hseeds, hbytes, fun name other => ofName_eq_iff.trans (hseeds _ other), ?_⟩
  intro name other hsize hwithin
  obtain ⟨block, hagree⟩ :
      ∃ block, AgreeOutside block name.toUTF8.data.toList other.toUTF8.data.toList := by
    rcases hwithin with hle | hsome
    · exact ⟨0, .of_le hsize hle⟩
    · exact hsome
  rw [ofName_eq_iff, hbytes block _ _ hagree, toUTF8_inj]

/-- Two names of twenty-one bytes that differ in the last two, and so in the second block only. -/
theorem digest_separates_nested :
    let name := "zoo::deep::er::Nested"
    let other := "zoo::deep::er::Nestor"
    name.utf8ByteSize = other.utf8ByteSize ∧
      AgreeOutside 1 name.toUTF8.data.toList other.toUTF8.data.toList ∧
      Key.ofName name 7 ≠ Key.ofName other 7 ∧ Key.ofName name 7 ≠ Key.ofName name 8 := by
  intro name other
  have hsize : name.utf8ByteSize = other.utf8ByteSize := by decide +kernel
  have hagree : AgreeOutside 1 name.toUTF8.data.toList other.toUTF8.data.toList := by
    decide +kernel
  obtain ⟨-, -, hseeds, hnames⟩ := digest_separates 7
  refine ⟨hsize, hagree, ?_, ?_⟩
  · rw [ne_eq, hnames name other hsize (.inr ⟨1, hagree⟩)]
    decide
  · rw [ne_eq, hseeds]
    decide

end EntityWorld.Murmur
