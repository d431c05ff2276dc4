import EntityWorld.Ascending
import EntityWorld.Murmur
import Std.Data.ExtTreeMap.Basic

namespace EntityWorld

/-- A 128-bit key in two halves. -/
structure Key where
  low : UInt64
  high : UInt64
deriving DecidableEq

namespace Key

/-- The key of no names at all. -/
def identity : Key := ⟨0, 0⟩

instance : Inhabited Key := ⟨identity⟩

/-- Adds two keys bit by bit. Each key is its own opposite. -/
def combine (k l : Key) : Key :=
  ⟨k.low ^^^ l.low, k.high ^^^ l.high⟩

/-- The key of a single name: the digest of its bytes under the seed. -/
def ofName (name : String) (seed : UInt32) : Key :=
  let lanes := Murmur.digest name.toUTF8.data.toList seed
  ⟨lanes.first, lanes.second⟩

/-- The key of a set of names: the bitwise sum of the keys of its members, so their order does not
    matter. A name listed twice cancels out, so the names have to be distinct for the key to be that
    of the set. -/
def ofNames (names : List String) (seed : UInt32) : Key :=
  (sortBy (fun a b => decide (a ≤ b)) names).foldl
    (fun key name => key.combine (ofName name seed)) identity

def isIdentity (key : Key) : Bool :=
  key == identity

/-- The key as a number below `2 ^ 128`. -/
def toNat (key : Key) : Nat :=
  key.high.toNat <<< 64 + key.low.toNat

/-- The key whose number is `n`, bits from `2 ^ 128` on left out. -/
def ofNat (n : Nat) : Key :=
  ⟨n.toUInt64, (n >>> 64).toUInt64⟩

/-- Keys are ordered as their numbers are, so the high half counts first. -/
instance : Ord Key :=
  ⟨fun k l => (compare k.high l.high).then (compare k.low l.low)⟩

instance : Std.TransOrd Key :=
  inferInstanceAs (Std.TransCmp (compareLex (compareOn Key.high) (compareOn Key.low)))

instance : Std.LawfulEqOrd Key where
  eq_of_compare {k l} hcompare := by
    obtain ⟨hhigh, hlow⟩ := Ordering.then_eq_eq.mp hcompare
    cases k
    cases l
    simp_all

/-- Keys in ascending order. -/
def sort (keys : List Key) : List Key :=
  sortBy (fun k l => (compare k l).isLE) keys

/-- The key in 32 hexadecimal digits. -/
def text (key : Key) : String :=
  let digits := Nat.toDigits 16 key.toNat
  String.ofList (List.replicate (32 - digits.length) '0' ++ digits)

/-- The text of a key within messages for developers. -/
def debugText (key : Key) : String :=
  "ArchetypeKey(" ++ key.text ++ ")"

end Key

end EntityWorld
