import EntityWorld.Proofs.Subsets.Positions

namespace EntityWorld

section

variable {α σ : Type} {next? : σ → Option (α × σ)}

/-- What a source is after a number of draws. A draw that finds nothing leaves it as it is. -/
def afterDraws (next? : σ → Option (α × σ)) : Nat → σ → σ
  | 0, source => source
  | count + 1, source =>
    match next? source with
    | none => afterDraws next? count source
    | some (_, rest) => afterDraws next? count rest

/-- Drawing from a source again and again finds the items of a list one after another, and then
nothing for ever. -/
def Yields (next? : σ → Option (α × σ)) (source : σ) (items : List α) : Prop :=
  ∀ count, (next? (afterDraws next? count source)).map Prod.fst = items[count]?

/-- A source yields its list if each draw takes the first item off the list. The induction is over
the number of draws, for any source. -/
theorem yields_of_toList (toList : σ → List α)
    (hnone : ∀ source, next? source = none → toList source = [])
    (hsome : ∀ source item rest, next? source = some (item, rest) →
      toList source = item :: toList rest)
    (source : σ) : Yields next? source (toList source) := by
  intro count
  induction count generalizing source with
  | zero =>
    cases hnext : next? source with
    | none => rw [afterDraws, hnext, hnone source hnext]; rfl
    | some found => rw [afterDraws, hnext, hsome source found.1 found.2 hnext]; rfl
  | succ count ih =>
    cases hnext : next? source with
    | none => rw [afterDraws, hnext, ih source, hnone source hnext]; rfl
    | some found => rw [afterDraws, hnext, ih found.2, hsome source found.1 found.2 hnext]; rfl

/-- What each draw keeps holds after any number of them, also when some of them find nothing. -/
theorem afterDraws_induction {P : σ → Prop}
    (hstep : ∀ source item rest, P source → next? source = some (item, rest) → P rest)
    {source : σ} (hsource : P source) (count : Nat) : P (afterDraws next? count source) := by
  induction count generalizing source with
  | zero => exact hsource
  | succ count ih =>
    rw [afterDraws]
    cases hnext : next? source with
    | none => exact ih hsource
    | some found => exact ih (hstep source found.1 found.2 hsource hnext)

end

variable {α : Type}

namespace Combinations

theorem toList_of_none {combinations : Combinations α} (hnext : combinations.next? = none) :
    combinations.toList = [] := by
  rw [next?, Option.map_eq_none_iff] at hnext
  rw [toList, hnext]

theorem toList_of_some {combinations rest : Combinations α} {item : List α}
    (hnext : combinations.next? = some (item, rest)) :
    combinations.toList = item :: rest.toList := by
  obtain ⟨items, positions⟩ := combinations
  cases positions with
  | none => cases hnext
  | some positions =>
    obtain ⟨rfl, rfl⟩ := Prod.mk.inj (Option.some.inj hnext)
    change (positionsFrom items.size positions).map (pick items) = _
    cases hfollowing : advance? items.size positions with
    | none => rw [positionsFrom_of_none hfollowing]; rfl
    | some following => rw [positionsFrom_of_some hfollowing]; rfl

/-- Combinations are drawn in the order in which they are listed, and nothing after them. -/
theorem yields_toList (combinations : Combinations α) :
    Yields next? combinations combinations.toList :=
  yields_of_toList toList (fun _ => toList_of_none) (fun _ _ _ => toList_of_some) combinations

/-- The next draw as a search for the position to move up. It fails if there is no item at a
position, or if there are more positions than items to count down from: these are the two places
where an index runs out of bounds or a number falls below zero. -/
def checkedNext? (combinations : Combinations α) : Option (Option (List α × Combinations α)) :=
  match combinations.positions with
  | none => some none
  | some positions =>
    if positions.length ≤ combinations.items.size then
      (positions.mapM (combinations.items[·]?)).map fun item =>
        let following := (movable? combinations.items.size positions).map (moveUp positions)
        some (item, { combinations with positions := following })
    else
      none

/-- The positions are those of items, and no more than there are items. -/
def Fits (combinations : Combinations α) : Prop :=
  ∀ positions, combinations.positions = some positions →
    positions.length ≤ combinations.items.size ∧
      ∀ position ∈ positions, position < combinations.items.size

/-- A fresh source has its positions below the number of items, whatever size was asked for, since
the size is clamped first. -/
theorem fits_ofSize (items : Array α) (size : Nat) : (ofSize items size).Fits := by
  intro positions hpositions
  obtain rfl := Option.some.inj hpositions
  simp only [ofSize, List.length_range, List.mem_range]
  split <;> exact ⟨by omega, fun position hlt => by omega⟩

/-- A draw leaves as many positions as before, all of them below the number of items. -/
theorem Fits.next {combinations rest : Combinations α} {item : List α} (hfits : combinations.Fits)
    (hnext : combinations.next? = some (item, rest)) : rest.Fits := by
  obtain ⟨positions, hpositions, heq⟩ := Option.map_eq_some_iff.mp hnext
  obtain ⟨-, rfl⟩ := Prod.mk.inj heq
  obtain ⟨hlength, hbelow⟩ := hfits positions hpositions
  intro following hfollowing
  exact ⟨(length_of_advance? hfollowing).trans_le hlength, below_of_advance? hfollowing hbelow⟩

theorem items_of_next? {combinations rest : Combinations α} {item : List α}
    (hnext : combinations.next? = some (item, rest)) : rest.items = combinations.items := by
  obtain ⟨positions, -, heq⟩ := Option.map_eq_some_iff.mp hnext
  exact (Prod.mk.inj heq).2 ▸ rfl

theorem pick_cons {items : Array α} {position : Nat} (hlt : position < items.size)
    (positions : List Nat) :
    pick items (position :: positions) = items[position] :: pick items positions :=
  List.filterMap_cons_some (Array.getElem?_eq_getElem hlt)

theorem map_some_pick {items : Array α} {positions : List Nat}
    (hbelow : ∀ position ∈ positions, position < items.size) :
    (pick items positions).map some = positions.map (items[·]?) := by
  induction positions with
  | nil => rfl
  | cons position rest ih =>
    obtain ⟨hfirst, hrest⟩ := List.forall_mem_cons.mp hbelow
    rw [pick_cons hfirst, List.map_cons, List.map_cons, ih hrest, Array.getElem?_eq_getElem hfirst]

/-- Looking up position by position, and failing at the first one without an item, picks the same
when there is no such position. -/
theorem mapM_getElem?_eq_pick {items : Array α} {positions : List Nat}
    (hbelow : ∀ position ∈ positions, position < items.size) :
    positions.mapM (items[·]?) = some (pick items positions) := by
  induction positions with
  | nil => rfl
  | cons position rest ih =>
    obtain ⟨hfirst, hrest⟩ := List.forall_mem_cons.mp hbelow
    rw [List.mapM_cons, Array.getElem?_eq_getElem hfirst, ih hrest, pick_cons hfirst]
    rfl

/-- No check fails on positions that fit, and then the draw by search is the draw. -/
theorem Fits.checkedNext?_eq {combinations : Combinations α} (hfits : combinations.Fits) :
    combinations.checkedNext? = some combinations.next? := by
  rw [checkedNext?, next?]
  cases hpositions : combinations.positions with
  | none => rfl
  | some positions =>
    obtain ⟨hlength, hbelow⟩ := hfits positions hpositions
    simp only [if_pos hlength, mapM_getElem?_eq_pick hbelow, ← advance?_eq_map_movable? hlength]
    rfl

/-- The combinations of any size: zero, or a size beyond the number of items, stands for that
number. -/
theorem toList_ofSize_eq (items : List α) (size : Nat) :
    (ofSize items.toArray size).toList =
      (choose (if size = 0 ∨ items.length < size then items.length else size)
        (List.range items.length)).map (pick items.toArray) := by
  rw [← positionsFrom_range (by split <;> omega)]
  rfl

end Combinations

namespace Subsets

/-- All subsets that are still to come. -/
def toList (subsets : Subsets α) : List (List α) :=
  subsets.current.toList ++ subsets.sizes.flatMap fun size =>
    (Combinations.ofSize subsets.current.items size).toList

theorem toList_of_none {subsets : Subsets α} (hnext : subsets.next? = none) :
    subsets.toList = [] := by
  obtain ⟨current, sizes⟩ := subsets
  rw [next?] at hnext
  cases hcurrent : current.next? with
  | some found => rw [hcurrent] at hnext; cases hnext
  | none =>
    rw [hcurrent] at hnext
    cases sizes with
    | nil => rw [toList, Combinations.toList_of_none hcurrent]; rfl
    | cons size sizes => cases hnext

/-- A draw takes the first of the subsets that are still to come, going on to the next size when
there is no other of the current one. -/
theorem toList_of_some {subsets rest : Subsets α} {item : List α}
    (hnext : subsets.next? = some (item, rest)) : subsets.toList = item :: rest.toList := by
  obtain ⟨current, sizes⟩ := subsets
  rw [next?] at hnext
  cases hcurrent : current.next? with
  | some found =>
    rw [hcurrent] at hnext
    obtain ⟨rfl, rfl⟩ := Prod.mk.inj (Option.some.inj hnext)
    rw [toList, toList, Combinations.toList_of_some hcurrent, Combinations.items_of_next? hcurrent]
    rfl
  | none =>
    rw [hcurrent] at hnext
    cases sizes with
    | nil => cases hnext
    | cons size sizes =>
      obtain ⟨⟨first, others⟩, hfirst, heq⟩ := Option.map_eq_some_iff.mp hnext
      obtain ⟨rfl, rfl⟩ := Prod.mk.inj heq
      have hitems := Combinations.items_of_next? hfirst
      rw [toList, toList, Combinations.toList_of_none hcurrent, List.flatMap_cons,
        Combinations.toList_of_some hfirst, hitems]
      rfl

/-- Subsets are drawn in the order in which they are listed, and nothing after them. -/
theorem yields_toList (subsets : Subsets α) : Yields next? subsets subsets.toList :=
  yields_of_toList toList (fun _ => toList_of_none) (fun _ _ _ => toList_of_some) subsets

end Subsets

/-- Each part consists of the items at the positions in its list, and there is an item at each of
them. -/
def ItemsAt (items : List α) (lists : List (List Nat)) (parts : List (List α)) : Prop :=
  parts.map (List.map some) = lists.map (List.map (items[·]?))

/-- Lists of positions pick one item for each position when they select among the items, so nothing
is left out silently. -/
theorem itemsAt_map_pick {items : List α} {lists : List (List Nat)}
    (hlists : ∀ positions ∈ lists, Selects items.length positions) :
    ItemsAt items lists (lists.map (Combinations.pick items.toArray)) := by
  rw [ItemsAt, List.map_map]
  refine List.map_congr_left fun positions hmem => ?_
  have hbelow : ∀ position ∈ positions, position < items.toArray.size := (hlists positions hmem).below
  simpa only [Function.comp_apply, List.getElem?_toArray] using Combinations.map_some_pick hbelow

theorem subsets_eq_map_pick (items : List α) :
    subsets items = ((List.range' 1 items.length).flatMap fun size =>
      choose size (List.range items.length)).map (Combinations.pick items.toArray) := by
  rw [subsets, List.map_flatMap]
  refine List.flatMap_congr fun size hsize => ?_
  rw [List.mem_range'_1] at hsize
  rw [Combinations.toList_ofSize_eq, if_neg (by omega)]

/-- A list of `n` items has `2 ^ n - 1` subsets besides the empty one, items that are equal counted
apart. -/
theorem length_subsets (items : List α) : (subsets items).length = 2 ^ items.length - 1 := by
  have hlength := (nil_cons_subsets_perm items).length_eq
  rw [List.length_cons, List.length_sublists] at hlength
  omega

/-- Combinations of a size are drawn at all ascending lists of that many positions, each once and in
lexicographic order, and then never again. No draw looks up a position that is no item's, or counts
below zero. Subsets are those at all ascending lists of positions but the empty one, each once, the
short ones first and those of a length in lexicographic order. -/
theorem draws_enumerate (items : List α) :
    (∀ size, ∃ lists parts,
      Enumerates (List.Lex (· < ·))
        (fun positions => Selects items.length positions ∧
          positions.length = if size = 0 ∨ items.length < size then items.length else size) lists ∧
      ItemsAt items lists parts ∧
      Yields Combinations.next? (.ofSize items.toArray size) parts ∧
      ∀ count,
        let left := afterDraws Combinations.next? count (.ofSize items.toArray size)
        left.checkedNext? = some left.next?) ∧
    (∃ lists,
      Enumerates (List.Shortlex (· < ·))
        (fun positions => Selects items.length positions ∧ positions ≠ []) lists ∧
      ItemsAt items lists (subsets items) ∧
      Yields Subsets.next? (.ofArray items.toArray) (subsets items)) ∧
    (subsets items).length = 2 ^ items.length - 1 := by
  refine ⟨fun size => ?_, ?_, length_subsets items⟩
  · let k := if size = 0 ∨ items.length < size then items.length else size
    have hlists := enumerates_choose k items.length
    have hyields := (Combinations.ofSize items.toArray size).yields_toList
    rw [Combinations.toList_ofSize_eq] at hyields
    refine ⟨_, _, hlists, itemsAt_map_pick fun positions hmem => ?_, hyields, fun count => ?_⟩
    · exact ((hlists.mem_iff positions).mp hmem).1
    · refine Combinations.Fits.checkedNext?_eq (afterDraws_induction ?_ ?_ count)
      · exact fun _ _ _ hfits hnext => hfits.next hnext
      · exact Combinations.fits_ofSize items.toArray size
  · have hlists := enumerates_flatMap_choose items.length
    have hyields := (Subsets.ofArray items.toArray).yields_toList
    have hall : (Subsets.ofArray items.toArray).toList = subsets items := rfl
    rw [hall] at hyields
    refine ⟨_, hlists, ?_, hyields⟩
    rw [subsets_eq_map_pick]
    exact itemsAt_map_pick fun positions hmem => ((hlists.mem_iff positions).mp hmem).1

end EntityWorld
