import EntityWorld.Proofs.Subsets
import Mathlib.Data.List.Shortlex
import Mathlib.Data.List.Sort

namespace EntityWorld

/-- Positions of some of `n` items, in ascending order. -/
structure Selects (n : Nat) (positions : List Nat) : Prop where
  ascending : positions.Pairwise (· < ·)
  below : ∀ position ∈ positions, position < n

/-- Lists are all those that are wanted, each once, in the order of a relation. Nothing comes twice,
since the relations in question are irreflexive. -/
structure Enumerates (before : List Nat → List Nat → Prop) (wanted : List Nat → Prop)
    (lists : List (List Nat)) : Prop where
  ordered : lists.Pairwise before
  mem_iff : ∀ positions, positions ∈ lists ↔ wanted positions

theorem mem_choose_iff {α : Type} {size : Nat} {items part : List α} :
    part ∈ choose size items ↔ part.Sublist items ∧ part.length = size := by
  rw [(choose_perm_sublistsLen size items).mem_iff, List.mem_sublistsLen]

/-- The sublists of the first numbers are the ascending lists of numbers below the bound. -/
theorem sublist_range_iff {n : Nat} {positions : List Nat} :
    positions.Sublist (List.range n) ↔ Selects n positions := by
  constructor
  · intro hsub
    exact ⟨List.pairwise_lt_range.sublist hsub, fun position hmem =>
      List.mem_range.mp (hsub.subset hmem)⟩
  · rintro ⟨hascending, hbelow⟩
    have hsub := List.subperm_of_subset (hascending.imp Nat.ne_of_lt) fun position hmem =>
      List.mem_range.mpr (hbelow position hmem)
    exact List.sublist_of_subperm_of_pairwise hsub (hascending.imp Nat.le_of_lt)
      (List.pairwise_lt_range.imp Nat.le_of_lt)

/-- The sublists of a length come in lexicographic order if the items do. Those with the first item
come first, and it is less than all others. -/
theorem pairwise_choose (size : Nat) {items : List Nat} (hitems : items.Pairwise (· < ·)) :
    (choose size items).Pairwise (List.Lex (· < ·)) := by
  induction items generalizing size with
  | nil => cases size <;> simp [choose]
  | cons item items ih =>
    obtain ⟨hfirst, hrest⟩ := List.pairwise_cons.mp hitems
    cases size with
    | zero => simp
    | succ size =>
      rw [choose_succ_cons, List.pairwise_append]
      refine ⟨List.pairwise_map.mpr ((ih size hrest).imp .cons), ih (size + 1) hrest, ?_⟩
      -- Lists that begin with the first item come before those that begin with a later one.
      intro part hpart other hother
      obtain ⟨tail, -, rfl⟩ := List.mem_map.mp hpart
      obtain ⟨hsub, hlength⟩ := mem_choose_iff.mp hother
      cases other with
      | nil => cases hlength
      | cons head _ => exact .rel (hfirst head (hsub.subset List.mem_cons_self))

/-- All ascending lists of positions of a length are chosen, each once and in lexicographic
order. -/
theorem enumerates_choose (size n : Nat) :
    Enumerates (List.Lex (· < ·)) (fun positions => Selects n positions ∧ positions.length = size)
      (choose size (List.range n)) where
  ordered := pairwise_choose size List.pairwise_lt_range
  mem_iff positions := by rw [mem_choose_iff, sublist_range_iff]

/-- All ascending lists of positions but the empty one are chosen, the short ones first and those of
a length in lexicographic order. -/
theorem enumerates_flatMap_choose (n : Nat) :
    Enumerates (List.Shortlex (· < ·)) (fun positions => Selects n positions ∧ positions ≠ [])
      ((List.range' 1 n).flatMap fun size => choose size (List.range n)) where
  ordered := by
    refine List.pairwise_flatMap.mpr ⟨fun size _ => ?_, ?_⟩
    · refine (enumerates_choose size n).ordered.imp_of_mem fun {part other} hpart hother hlex => ?_
      refine .of_lex ?_ hlex
      rw [length_of_mem_choose hpart, length_of_mem_choose hother]
    · refine List.Pairwise.imp (fun {size larger} hlt part hpart other hother => ?_)
        List.pairwise_lt_range'
      refine .of_length_lt ?_
      rwa [length_of_mem_choose hpart, length_of_mem_choose hother]
  mem_iff positions := by
    simp only [List.mem_flatMap, List.mem_range'_1, (enumerates_choose _ n).mem_iff]
    constructor
    · rintro ⟨size, hsize, hselects, rfl⟩
      exact ⟨hselects, List.ne_nil_of_length_pos hsize.1⟩
    · rintro ⟨hselects, hne⟩
      have hlength := (sublist_range_iff.mpr hselects).length_le
      rw [List.length_range] at hlength
      have hpositive := List.length_pos_of_ne_nil hne
      exact ⟨positions.length, by omega, hselects, rfl⟩

/-- The rightmost place whose position can still move up. Of `n` items, the position at place `i` of
`k` can move up to `n - k + i`, which leaves just enough room for those behind it. -/
def movable? (n : Nat) (positions : List Nat) : Option (Fin positions.length) :=
  (List.finRange positions.length).reverse.find? fun place =>
    positions.get place < n - positions.length + place

/-- The positions after the one at a place has moved up by one and those behind it have closed
up. -/
def moveUp (positions : List Nat) (place : Fin positions.length) : List Nat :=
  positions.take place ++ List.range' (positions.get place + 1) (positions.length - place)

/-- The first position only moves up if none behind it can. The recursion that steps through the
positions asks in the same order. -/
theorem movable?_cons {n position : Nat} {rest : List Nat} (hroom : rest.length + 1 ≤ n) :
    movable? n (position :: rest) =
      ((movable? n rest).map Fin.succ).or
        (if position + rest.length + 1 < n then some 0 else none) := by
  let canMove (place : Fin (rest.length + 1)) : Bool :=
    (position :: rest).get place < n - (rest.length + 1) + place
  have hlater : canMove ∘ Fin.succ = fun place => rest.get place < n - rest.length + place := by
    funext place
    simp only [canMove, Function.comp_apply, Fin.val_succ]
    congr 2
    omega
  have hfirst : canMove 0 = decide (position + rest.length + 1 < n) := by
    refine decide_eq_decide.mpr ?_
    change position < n - (rest.length + 1) + 0 ↔ _
    omega
  change (List.finRange (rest.length + 1)).reverse.find? canMove = _
  rw [List.finRange_succ, List.reverse_cons, List.find?_append, ← List.map_reverse,
    List.find?_map, hlater, List.find?_singleton, hfirst]
  simp only [decide_eq_true_eq]
  rfl

/-- Stepping to the next list of positions is moving the rightmost position up that can be. The step
is defined by recursion from the left, and a search from the right finds the same. -/
theorem advance?_eq_map_movable? {n : Nat} {positions : List Nat} (hroom : positions.length ≤ n) :
    advance? n positions = (movable? n positions).map (moveUp positions) := by
  induction positions with
  | nil => rfl
  | cons position rest ih =>
    rw [List.length_cons] at hroom
    rw [movable?_cons hroom, advance?, ih (by omega)]
    cases movable? n rest with
    | some place => simp [moveUp]
    | none =>
      simp only [Option.map_none, Option.none_or]
      split
      · simp [moveUp]
      · rfl

/-- A step stays among the positions of items, so no draw looks behind the last of them. -/
theorem below_of_advance? {n : Nat} {positions next : List Nat}
    (hnext : advance? n positions = some next) (hbelow : ∀ position ∈ positions, position < n) :
    ∀ position ∈ next, position < n := by
  induction positions generalizing next with
  | nil => simp [advance?] at hnext
  | cons first rest ih =>
    obtain ⟨hfirst, hrest⟩ := List.forall_mem_cons.mp hbelow
    rw [advance?] at hnext
    split at hnext
    case h_1 tail htail =>
      obtain rfl := Option.some.inj hnext
      exact List.forall_mem_cons.mpr ⟨hfirst, ih htail hrest⟩
    case h_2 =>
      split at hnext
      case isTrue hroom =>
        obtain rfl := Option.some.inj hnext
        intro position hmem
        rw [List.mem_range'_1] at hmem
        omega
      case isFalse => cases hnext

end EntityWorld
