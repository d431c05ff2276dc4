namespace EntityWorld

/-- Adds an item to an ascending list, in front of the first that it may stand
    in front of. -/
def insertBy {α : Type} (le : α → α → Bool) (item : α) : List α → List α
  | [] => [item]
  | first :: rest =>
    if le item first then item :: first :: rest else first :: insertBy le item rest

/-- Sorts a list by inserting its items, the last one first. Items that may stand in either order
    keep the one they have. The result holds the items of the list and ascends if any two items are
    ordered and the order is transitive. -/
def sortBy {α : Type} (le : α → α → Bool) (items : List α) : List α :=
  items.foldr (insertBy le) []

section

variable {α : Type} {le : α → α → Bool}

theorem insertBy_perm (item : α) (items : List α) :
    (insertBy le item items).Perm (item :: items) := by
  induction items with
  | nil => exact .refl _
  | cons first rest ih =>
    rw [insertBy]
    split
    · exact .refl _
    · exact (ih.cons first).trans (.swap item first rest)

theorem sortBy_perm (items : List α) : (sortBy le items).Perm items := by
  induction items with
  | nil => exact .refl _
  | cons item items ih => exact (insertBy_perm item _).trans (ih.cons item)

theorem pairwise_insertBy (trans : ∀ a b c, le a b → le b c → le a c)
    (total : ∀ a b, le a b || le b a) {items : List α} (hitems : items.Pairwise (le · ·))
    (item : α) : (insertBy le item items).Pairwise (le · ·) := by
  induction items with
  | nil => exact List.pairwise_singleton _ _
  | cons first rest ih =>
    obtain ⟨hfirst, hrest⟩ := List.pairwise_cons.mp hitems
    rw [insertBy]
    split
    case isTrue hle =>
      refine hitems.cons fun other hother => ?_
      rcases List.mem_cons.mp hother with rfl | hmem
      · exact hle
      · exact trans _ _ _ hle (hfirst other hmem)
    case isFalse hnot =>
      refine (ih hrest).cons fun other hother => ?_
      rcases List.mem_cons.mp ((insertBy_perm item rest).mem_iff.mp hother) with rfl | hmem
      · exact (Bool.or_eq_true_iff.mp (total other first)).resolve_left hnot
      · exact hfirst other hmem

theorem pairwise_sortBy (trans : ∀ a b c, le a b → le b c → le a c)
    (total : ∀ a b, le a b || le b a) (items : List α) : (sortBy le items).Pairwise (le · ·) := by
  induction items with
  | nil => exact .nil
  | cons item items ih => exact pairwise_insertBy trans total ih item

end

end EntityWorld
