namespace EntityWorld

/-- The ascending list of positions below `n` that follows `positions` in lexicographic order. The
    rightmost position with room behind it moves up by one, and those after it close up to it. Every
    enumeration of combinations repeats this step. -/
def advance? (n : Nat) : List Nat → Option (List Nat)
  | [] => none
  | position :: rest =>
    match advance? n rest with
    | some next => some (position :: next)
    | none =>
      if position + rest.length + 1 < n then
        some (List.range' (position + 1) (rest.length + 1))
      else
        none

/-- Reads a list of positions as a number to base `n + 1` whose digits are
    the distances to `n`. Each step of `advance?` makes it smaller. -/
def remaining (n : Nat) : List Nat → Nat
  | [] => 0
  | position :: rest => (n - position) * Nat.pow (n + 1) rest.length + remaining n rest

theorem remaining_lt (n : Nat) (positions : List Nat) :
    remaining n positions < Nat.pow (n + 1) positions.length := by
  induction positions with
  | nil => simp [remaining]
  | cons position rest ih =>
    simp only [remaining, List.length_cons]
    have hdigit : (n - position) * Nat.pow (n + 1) rest.length ≤ n * Nat.pow (n + 1) rest.length :=
      Nat.mul_le_mul_right _ (Nat.sub_le n position)
    have hbase : Nat.pow (n + 1) (rest.length + 1) =
        n * Nat.pow (n + 1) rest.length + Nat.pow (n + 1) rest.length := by
      rw [← Nat.succ_mul, Nat.mul_comm]
      rfl
    omega

theorem length_of_advance? {n : Nat} {positions next : List Nat}
    (hnext : advance? n positions = some next) : next.length = positions.length := by
  induction positions generalizing next with
  | nil => simp [advance?] at hnext
  | cons position rest ih =>
    simp only [advance?] at hnext
    split at hnext
    case h_1 tail htail =>
      obtain rfl := Option.some.inj hnext
      simp [ih htail]
    case h_2 =>
      split at hnext
      · obtain rfl := Option.some.inj hnext
        simp
      · cases hnext

theorem remaining_advance?_lt {n : Nat} {positions next : List Nat}
    (hnext : advance? n positions = some next) : remaining n next < remaining n positions := by
  induction positions generalizing next with
  | nil => simp [advance?] at hnext
  | cons position rest ih =>
    simp only [advance?] at hnext
    split at hnext
    case h_1 tail htail =>
      obtain rfl := Option.some.inj hnext
      simp only [remaining, length_of_advance? htail]
      have := ih htail
      omega
    case h_2 =>
      split at hnext
      case isTrue hroom =>
        obtain rfl := Option.some.inj hnext
        simp only [List.range'_succ, remaining, List.length_range']
        have htail := remaining_lt n (List.range' (position + 1 + 1) rest.length)
        rw [List.length_range'] at htail
        have hdigit : n - position = (n - (position + 1)) + 1 := by omega
        rw [hdigit, Nat.succ_mul]
        omega
      case isFalse => cases hnext

/-- `positions` and all lists of positions that follow. -/
def positionsFrom (n : Nat) (positions : List Nat) : List (List Nat) :=
  positions :: match _hnext : advance? n positions with
    | none => []
    | some next => positionsFrom n next
termination_by remaining n positions
decreasing_by exact remaining_advance?_lt _hnext

/-- Combinations still to come: the items they are drawn from, and the
    positions of the next one unless all have been drawn. -/
structure Combinations (α : Type) where
  items : Array α
  positions : Option (List Nat)

namespace Combinations

/-- The combinations of `size` items. A size of zero, or beyond the number of
    items, asks for all items at once. -/
def ofSize {α : Type} (items : Array α) (size : Nat) : Combinations α :=
  let size := if size = 0 ∨ items.size < size then items.size else size
  ⟨items, some (List.range size)⟩

/-- The items at given positions. -/
def pick {α : Type} (items : Array α) (positions : List Nat) : List α :=
  positions.filterMap (items[·]?)

/-- Draws the next combination. -/
def next? {α : Type} (combinations : Combinations α) : Option (List α × Combinations α) :=
  combinations.positions.map fun positions =>
    (pick combinations.items positions,
      { combinations with positions := advance? combinations.items.size positions })

/-- All combinations that are still to come. -/
def toList {α : Type} (combinations : Combinations α) : List (List α) :=
  match combinations.positions with
  | none => []
  | some positions =>
    (positionsFrom combinations.items.size positions).map (pick combinations.items)

/-- Draws at most `count` combinations, and gives what is left. -/
def take {α : Type} : Nat → Combinations α → List (List α) × Combinations α
  | 0, combinations => ([], combinations)
  | count + 1, combinations =>
    match combinations.next? with
    | none => ([], combinations)
    | some (item, rest) =>
      let (items, rest) := rest.take count
      (item :: items, rest)

end Combinations

/-- Every non-empty subset of a list, by size and within a size in
    lexicographic order of positions. -/
def subsets {α : Type} (items : List α) : List (List α) :=
  (List.range' 1 items.length).flatMap fun size =>
    (Combinations.ofSize items.toArray size).toList

/-- The subsets in the order of `subsets`, drawn one at a time: those of the
    current size that are still to come, then those of larger sizes. -/
structure Subsets (α : Type) where
  current : Combinations α
  sizes : List Nat

namespace Subsets

def ofArray {α : Type} (items : Array α) : Subsets α :=
  ⟨⟨items, none⟩, List.range' 1 items.size⟩

/-- Draws the next subset. No size is without combinations, so a fresh size
    always yields one. -/
def next? {α : Type} (subsets : Subsets α) : Option (List α × Subsets α) :=
  match subsets.current.next?, subsets.sizes with
  | some (item, rest), sizes => some (item, ⟨rest, sizes⟩)
  | none, [] => none
  | none, size :: sizes =>
    (Combinations.ofSize subsets.current.items size).next?.map fun (item, rest) =>
      (item, ⟨rest, sizes⟩)

/-- Draws at most `count` subsets. -/
def take {α : Type} : Nat → Subsets α → List (List α)
  | 0, _ => []
  | count + 1, subsets =>
    match subsets.next? with
    | none => []
    | some (item, rest) => item :: rest.take count

end Subsets

end EntityWorld
