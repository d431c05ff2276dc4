import EntityWorld.Subsets
import Mathlib.Data.List.Sublists

namespace EntityWorld

variable {α β : Type}

/-- The sublists of a given length, in lexicographic order of the positions of their items. Stepping
from one list of positions to the next is shown to go through these. -/
def choose : Nat → List α → List (List α)
  | 0, _ => [[]]
  | _ + 1, [] => []
  | size + 1, item :: items => (choose size items).map (item :: ·) ++ choose (size + 1) items

/-- There is one sublist without items, the empty one, even of an empty list. -/
@[simp] theorem choose_zero (items : List α) : choose 0 items = [[]] := by
  cases items <;> rfl

/-- The sublists with the first item come before those without it, which is what makes the order
lexicographic. -/
theorem choose_succ_cons (size : Nat) (item : α) (items : List α) :
    choose (size + 1) (item :: items) =
      (choose size items).map (item :: ·) ++ choose (size + 1) items := rfl

theorem choose_eq_nil {size : Nat} {items : List α} (hshort : items.length < size) :
    choose size items = [] := by
  induction items generalizing size with
  | nil =>
    cases size with
    | zero => simp at hshort
    | succ size => rfl
  | cons item items ih =>
    cases size with
    | zero => simp at hshort
    | succ size =>
      simp only [List.length_cons] at hshort
      rw [choose_succ_cons, ih (by omega), ih (by omega)]
      rfl

/-- Looking all items up, when every look-up has an answer, commutes with choosing. So it is enough
to choose positions. -/
theorem map_filterMap_choose (size : Nat) {items : List α} {look : α → Option β}
    (hfound : ∀ item ∈ items, (look item).isSome) :
    (choose size items).map (List.filterMap look) = choose size (items.filterMap look) := by
  induction items generalizing size with
  | nil => cases size <;> rfl
  | cons item items ih =>
    cases size with
    | zero => simp
    | succ size =>
      have hrest := fun other hother => hfound other (List.mem_cons_of_mem item hother)
      obtain ⟨value, hvalue⟩ := Option.isSome_iff_exists.mp (hfound item List.mem_cons_self)
      have hcons : List.filterMap look ∘ (item :: ·) = (value :: ·) ∘ List.filterMap look := by
        funext part
        simp [hvalue]
      rw [List.filterMap_cons_some hvalue, choose_succ_cons, choose_succ_cons, List.map_append,
        List.map_map, hcons, ← List.map_map, ih size hrest, ih (size + 1) hrest]

/-- Up to order these are the sublists of a length as they are known elsewhere, and can be counted
so. -/
theorem choose_perm_sublistsLen (size : Nat) (items : List α) :
    (choose size items).Perm (List.sublistsLen size items) := by
  induction items generalizing size with
  | nil => cases size <;> simp [choose]
  | cons item items ih =>
    cases size with
    | zero => simp
    | succ size =>
      rw [choose_succ_cons, List.sublistsLen_succ_cons]
      exact (((ih size).map _).append (ih (size + 1))).trans List.perm_append_comm

theorem positionsFrom_of_none {n : Nat} {positions : List Nat}
    (hnext : advance? n positions = none) : positionsFrom n positions = [positions] := by
  rw [positionsFrom]
  split
  case h_1 => rfl
  case h_2 heq =>
    rw [hnext] at heq
    cases heq

theorem positionsFrom_of_some {n : Nat} {positions next : List Nat}
    (hnext : advance? n positions = some next) :
    positionsFrom n positions = positions :: positionsFrom n next := by
  rw [positionsFrom]
  split
  case h_1 heq =>
    rw [hnext] at heq
    cases heq
  case h_2 heq =>
    rw [hnext] at heq
    rw [Option.some.inj heq]

/-- All lists that follow: first those with the same leading position, and then those from the
first list with the next leading position on, if there is room for one. -/
theorem positionsFrom_cons (n position : Nat) (rest : List Nat) :
    positionsFrom n (position :: rest) = (positionsFrom n rest).map (position :: ·) ++
      if position + rest.length + 1 < n then
        positionsFrom n (List.range' (position + 1) (rest.length + 1))
      else [] := by
  induction rest using positionsFrom.induct n with
  | case1 rest ih =>
    cases hnext : advance? n rest with
    | some next =>
      have hstep : advance? n (position :: rest) = some (position :: next) := by
        simp [advance?, hnext]
      rw [positionsFrom_of_some hstep, positionsFrom_of_some hnext, ih next hnext,
        length_of_advance? hnext]
      rfl
    | none =>
      rw [positionsFrom_of_none hnext]
      by_cases hroom : position + rest.length + 1 < n
      · have hstep : advance? n (position :: rest) =
            some (List.range' (position + 1) (rest.length + 1)) := by
          simp [advance?, hnext, hroom]
        rw [positionsFrom_of_some hstep, if_pos hroom]
        rfl
      · rw [positionsFrom_of_none (by simp [advance?, hnext, hroom]), if_neg hroom]
        rfl

/-- From the first list of positions on, the lists that follow are all lists. The induction is over
the length, and for each length over the room that is left behind the first position. -/
theorem positionsFrom_range' (n size start : Nat) (hroom : start + size ≤ n) :
    positionsFrom n (List.range' start size) = choose size (List.range' start (n - start)) := by
  induction size generalizing start with
  | zero =>
    rw [List.range'_zero, positionsFrom]
    simp [advance?]
  | succ size ih =>
    -- The leading position moves up until no room is left behind it.
    induction hleft : n - start generalizing start with
    | zero => omega
    | succ left ihleft =>
      have hrest : n - (start + 1) = left := by omega
      rw [List.range'_succ, positionsFrom_cons, List.length_range', ih (start + 1) (by omega),
        hrest, show List.range' start (left + 1) = start :: List.range' (start + 1) left from rfl,
        choose_succ_cons]
      congr 1
      split
      case isTrue hmore => exact ihleft (start + 1) (by omega) hrest
      case isFalse hless =>
        rw [choose_eq_nil]
        rw [List.length_range']
        omega

/-- The lists that follow the first one, with no position left out at the front, are all lists of
that length. -/
theorem positionsFrom_range {n size : Nat} (hfits : size ≤ n) :
    positionsFrom n (List.range size) = choose size (List.range n) := by
  have hall := positionsFrom_range' n size 0 (by omega)
  rwa [← List.range_eq_range', ← List.range_eq_range', Nat.sub_zero] at hall

theorem filterMap_getElem?_range (items : Array α) :
    (List.range items.size).filterMap (items[·]?) = items.toList := by
  obtain ⟨items⟩ := items
  induction items with
  | nil => rfl
  | cons item items ih =>
    simp only [List.size_toArray, List.length_cons, List.range_succ_eq_map] at ih ⊢
    simpa [List.filterMap_map, Function.comp_def] using ih

namespace Combinations

/-- The combinations of a size between one and the number of items are all of that size. Other sizes
are clamped before anything is drawn. -/
theorem toList_ofSize {items : Array α} {size : Nat} (hpositive : 0 < size)
    (hfits : size ≤ items.size) : (ofSize items size).toList = choose size items.toList := by
  have hsize : ¬(size = 0 ∨ items.size < size) := by omega
  have hfound : ∀ position ∈ List.range items.size, (items[position]?).isSome := by
    intro position hposition
    simpa using hposition
  simp only [ofSize, toList, hsize, if_false, positionsFrom_range hfits]
  exact (map_filterMap_choose size hfound).trans (by rw [filterMap_getElem?_range])

end Combinations

/-- The subsets of a list by size, and within a size in lexicographic order of positions. The empty
one is not among them, since sizes start at one. -/
theorem subsets_eq_flatMap_choose (items : List α) :
    subsets items = (List.range' 1 items.length).flatMap fun size => choose size items := by
  refine List.flatMap_congr fun size hsize => ?_
  rw [List.mem_range'_1] at hsize
  exact Combinations.toList_ofSize (by omega) (by simp; omega)

theorem length_of_mem_choose {size : Nat} {items part : List α} (hpart : part ∈ choose size items) :
    part.length = size :=
  List.length_of_sublistsLen ((choose_perm_sublistsLen size items).mem_iff.mp hpart)

theorem ne_nil_of_mem_subsets {items part : List α} (hpart : part ∈ subsets items) :
    part ≠ [] := by
  rw [subsets_eq_flatMap_choose] at hpart
  obtain ⟨size, hsize, hchosen⟩ := List.mem_flatMap.mp hpart
  rw [List.mem_range'_1] at hsize
  have hlength := length_of_mem_choose hchosen
  intro hnil
  rw [hnil, List.length_nil] at hlength
  omega

/-- Every non-empty sublist is drawn once for each choice of the positions of its items. With the
empty one put back these are all sublists. -/
theorem nil_cons_subsets_perm (items : List α) :
    ([] :: subsets items).Perm items.sublists := by
  have hsizes : (List.range (items.length + 1)).flatMap (List.sublistsLen · items) =
      [] :: (List.range' 1 items.length).flatMap (List.sublistsLen · items) := by
    rw [List.range_eq_range', List.range'_succ]
    simp
  have hdrawn : (subsets items).Perm
      ((List.range' 1 items.length).flatMap (List.sublistsLen · items)) := by
    rw [subsets_eq_flatMap_choose]
    exact List.Perm.flatMap_left _ fun size _ => choose_perm_sublistsLen size items
  refine (hdrawn.cons []).trans ?_
  rw [← hsizes]
  exact (List.range_bind_sublistsLen_perm items).trans (List.sublists_perm_sublists' items).symm

end EntityWorld
