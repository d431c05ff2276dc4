import EntityWorld.Ascending

namespace EntityWorld

/-- How many updates have come to their end. -/
structure Tick where
  count : UInt64 := 0
deriving DecidableEq

namespace Tick

instance : Ord Tick := ⟨fun s t => compare s.count t.count⟩

/-- Counts one more update. The count starts over after `2 ^ 64`. -/
def next (tick : Tick) : Tick :=
  ⟨tick.count + 1⟩

def text (tick : Tick) : String :=
  toString tick.count.toNat

/-- The text of a tick for developers. -/
def debugText (tick : Tick) : String :=
  "Tick(" ++ tick.text ++ ")"

/-- Ticks in ascending order. -/
def sort (ticks : List Tick) : List Tick :=
  sortBy (fun s t => (compare s t).isLE) ticks

end Tick

end EntityWorld
