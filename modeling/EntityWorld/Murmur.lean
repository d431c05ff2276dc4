namespace EntityWorld.Murmur

/-- The two words that a digest carries along. They start from the seed, take in sixteen bytes at a
    time, and are mixed once more at the end. Every step is invertible in the lanes and, apart from
    that, in the word taken in. -/
structure Lanes where
  first : UInt64
  second : UInt64
deriving DecidableEq

/-- Moves the bits of a word `count` places up, those that leave at the top
    coming back at the bottom. Used with counts strictly between 0 and 64. -/
def rotateLeft (word count : UInt64) : UInt64 :=
  word <<< count ||| word >>> (64 - count)

def firstMultiplier : UInt64 := 0x87c37b91114253d5

def secondMultiplier : UInt64 := 0x4cf5ad432745937f

/-- How a word is stirred before it enters the first lane. Zero stays zero. -/
def stirFirst (word : UInt64) : UInt64 :=
  rotateLeft (word * firstMultiplier) 31 * secondMultiplier

/-- How a word is stirred before it enters the second lane. Zero stays zero. -/
def stirSecond (word : UInt64) : UInt64 :=
  rotateLeft (word * secondMultiplier) 33 * firstMultiplier

/-- The number that bytes write with the least significant one first.
    Of more than eight bytes only the first eight count. -/
def littleEndian : List UInt8 → UInt64
  | [] => 0
  | byte :: bytes => byte.toUInt64 ||| littleEndian bytes <<< 8

/-- Takes in a block of sixteen bytes as two words. -/
def Lanes.absorb (lanes : Lanes) (low high : UInt64) : Lanes :=
  let first := (rotateLeft (lanes.first ^^^ stirFirst low) 27 + lanes.second) * 5 + 0x52dce729
  let second := (rotateLeft (lanes.second ^^^ stirSecond high) 31 + first) * 5 + 0x38495ab5
  ⟨first, second⟩

/-- Takes in the bytes after the last whole block, missing ones read as zero.
    A word that is all missing is zero and leaves its lane alone. -/
def Lanes.absorbTail (lanes : Lanes) (bytes : List UInt8) : Lanes :=
  ⟨lanes.first ^^^ stirFirst (littleEndian (bytes.take 8)),
    lanes.second ^^^ stirSecond (littleEndian (bytes.drop 8))⟩

/-- Takes in a byte string, block after block and then what is left. -/
def Lanes.absorbAll (lanes : Lanes) (bytes : List UInt8) : Lanes :=
  match _hrest : bytes.drop 15 with
  | [] => lanes.absorbTail bytes
  | _ :: rest =>
    (lanes.absorb (littleEndian (bytes.take 8)) (littleEndian ((bytes.drop 8).take 8))).absorbAll
      rest
termination_by bytes.length
decreasing_by
  have hlength := congrArg List.length _hrest
  simp only [List.length_drop, List.length_cons] at hlength
  omega

/-- Spreads every bit of a word over the whole word. -/
def avalanche (word : UInt64) : UInt64 :=
  let word := (word ^^^ word >>> 33) * 0xff51afd7ed558ccd
  let word := (word ^^^ word >>> 33) * 0xc4ceb9fe1a85ec53
  word ^^^ word >>> 33

/-- Adds the second lane to the first, then the new first to the second. -/
def Lanes.cross (lanes : Lanes) : Lanes :=
  let first := lanes.first + lanes.second
  ⟨first, lanes.second + first⟩

/-- Closes a digest over `length` bytes: the length enters both lanes, and
    they are crossed before and after the last stirring. -/
def Lanes.finish (lanes : Lanes) (length : UInt64) : Lanes :=
  let crossed := Lanes.cross ⟨lanes.first ^^^ length, lanes.second ^^^ length⟩
  Lanes.cross ⟨avalanche crossed.first, avalanche crossed.second⟩

/-- The digest of a byte string under a seed. -/
def digest (bytes : List UInt8) (seed : UInt32) : Lanes :=
  (Lanes.absorbAll ⟨seed.toUInt64, seed.toUInt64⟩ bytes).finish bytes.length.toUInt64

end EntityWorld.Murmur
