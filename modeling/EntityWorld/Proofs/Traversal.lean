import Mathlib.Data.List.Forall2
import Std.Data.ExtTreeMap.Lemmas

namespace EntityWorld

/-- A traversal succeeds exactly if each item does, and its results are those of the items in their
order. -/
theorem mapM_eq_ok_iff {ε α β : Type} {work : α → Except ε β} {items : List α} {results : List β} :
    items.mapM work = .ok results ↔
      List.Forall₂ (fun item result => work item = .ok result) items results := by
  induction items generalizing results with
  | nil => cases results <;> simp [pure, Except.pure]
  | cons item items ih =>
    rw [List.mapM_cons, List.forall₂_cons_left_iff]
    cases hitem : work item with
    | error error => simp [bind, Except.bind]
    | ok first =>
      cases hitems : items.mapM work with
      | error error => simp [bind, Except.bind, ← ih, hitems]
      | ok rest => simp [bind, Except.bind, pure, Except.pure, ← ih, hitems, eq_comm]

/-- A traversal fails with the error of the first item that fails. Items behind that one are not
looked at, so nothing is asked of them. -/
theorem mapM_eq_error_iff {ε α β : Type} {work : α → Except ε β} {items : List α} {error : ε} :
    items.mapM work = .error error ↔
      ∃ before item after, items = before ++ item :: after ∧
        (∀ earlier ∈ before, ∃ result, work earlier = .ok result) ∧ work item = .error error := by
  induction items with
  | nil => simp [pure, Except.pure]
  | cons first rest ih =>
    rw [List.mapM_cons]
    cases hfirst : work first with
    | error cause =>
      constructor
      · intro herror
        obtain rfl : cause = error := by simpa [bind, Except.bind] using herror
        exact ⟨[], first, rest, rfl, by simp, hfirst⟩
      · rintro ⟨before, item, after, hsplit, hbefore, hitem⟩
        cases before with
        | nil =>
          obtain ⟨rfl, -⟩ := List.cons.inj hsplit
          obtain rfl := Except.error.inj (hfirst.symm.trans hitem)
          rfl
        | cons other before =>
          obtain ⟨rfl, -⟩ := List.cons.inj hsplit
          obtain ⟨result, hresult⟩ := hbefore first List.mem_cons_self
          cases hfirst.symm.trans hresult
    | ok result =>
      have hlater :
          (do let results ← rest.mapM work; pure (result :: results) : Except ε (List β)) =
            .error error ↔ rest.mapM work = .error error := by
        cases rest.mapM work <;> simp [bind, Except.bind, pure, Except.pure]
      refine hlater.trans (ih.trans ⟨?_, ?_⟩)
      · rintro ⟨before, item, after, rfl, hbefore, hitem⟩
        exact ⟨first :: before, item, after, rfl, by simpa [hfirst] using hbefore, hitem⟩
      · rintro ⟨before, item, after, hsplit, hbefore, hitem⟩
        cases before with
        | nil =>
          obtain ⟨rfl, -⟩ := List.cons.inj hsplit
          cases hfirst.symm.trans hitem
        | cons other before =>
          obtain ⟨rfl, rfl⟩ := List.cons.inj hsplit
          exact ⟨before, item, after, rfl, fun earlier hearlier =>
            hbefore earlier (List.mem_cons_of_mem _ hearlier), hitem⟩

/-- Checks of all items pass if each of them does. None of them is made on what another one
leaves. -/
theorem forM_eq_ok_iff {ε α : Type} {work : α → Except ε Unit} {items : List α} :
    items.forM work = .ok () ↔ ∀ item ∈ items, work item = .ok () := by
  induction items with
  | nil => exact iff_of_true rfl nofun
  | cons item items ih =>
    rw [List.forM_eq_forM] at ih
    rw [List.forM_eq_forM, List.forM_cons, List.forall_mem_cons, ← ih]
    cases work item <;> simp [bind, Except.bind]

/-- Checks of all items fail with the error of the first item that fails. This is the traversal with
its answers dropped, and is derived from it. -/
theorem forM_eq_error_iff {ε α : Type} {work : α → Except ε Unit} {items : List α} {error : ε} :
    items.forM work = .error error ↔
      ∃ before item after, items = before ++ item :: after ∧
        (∀ earlier ∈ before, work earlier = .ok ()) ∧ work item = .error error := by
  have hdropped : items.forM work = (items.mapM work).map fun _ => () := by
    induction items with
    | nil => rfl
    | cons item items ih =>
      rw [List.forM_eq_forM] at ih
      rw [List.forM_eq_forM, List.forM_cons, List.mapM_cons, ih]
      cases work item with
      | error error => rfl
      | ok answer =>
        cases items.mapM work <;> simp [Except.map, bind, Except.bind, pure, Except.pure]
  have hmap {result : Except ε (List Unit)} :
      result.map (fun _ => ()) = .error error ↔ result = .error error := by
    cases result <;> simp [Except.map]
  have hpasses (item : α) : (∃ answer, work item = .ok answer) ↔ work item = .ok () :=
    ⟨fun ⟨(), hitem⟩ => hitem, fun hitem => ⟨(), hitem⟩⟩
  rw [hdropped, hmap, mapM_eq_error_iff]
  simp only [hpasses]

/-- Lists of pairs that agree in what is read off them agree as a whole. Here this is used for rows
and what is rebuilt of them. -/
theorem map_eq_map_of_forall₂ {α β γ : Type} {R : α → β → Prop} {f : α → γ} {g : β → γ}
    {items : List α} {others : List β} (hpairs : List.Forall₂ R items others)
    (heq : ∀ item other, R item other → g other = f item) : others.map g = items.map f := by
  induction hpairs with
  | nil => rfl
  | cons hfirst _ ih => rw [List.map_cons, List.map_cons, heq _ _ hfirst, ih]

theorem exists_forall₂ {α β : Type} {R : α → β → Prop} {items : List α}
    (hitems : ∀ item ∈ items, ∃ other, R item other) : ∃ others, List.Forall₂ R items others := by
  induction items with
  | nil => exact ⟨[], .nil⟩
  | cons item items ih =>
    obtain ⟨other, hfirst⟩ := hitems item List.mem_cons_self
    obtain ⟨others, hrest⟩ := ih fun later hlater => hitems later (List.mem_cons_of_mem item hlater)
    exact ⟨other :: others, .cons hfirst hrest⟩

theorem exists_of_mem_forall₂ {α β : Type} {R : α → β → Prop} {items : List α} {others : List β}
    (hpairs : List.Forall₂ R items others) {other : β} (hmem : other ∈ others) :
    ∃ item ∈ items, R item other := by
  induction hpairs with
  | nil => cases hmem
  | cons hfirst _ ih =>
    rcases List.mem_cons.mp hmem with rfl | hlater
    · exact ⟨_, List.mem_cons_self, hfirst⟩
    · obtain ⟨item, hitem, hpair⟩ := ih hlater
      exact ⟨item, List.mem_cons_of_mem _ hitem, hpair⟩

/-- At each place there is an item in both lists or in none, and in the former case the two are a
pair. -/
theorem getElem?_forall₂ {α β : Type} {R : α → β → Prop} {items : List α} {others : List β}
    (hpairs : List.Forall₂ R items others) (place : Nat) :
    (items[place]? = none ∧ others[place]? = none) ∨
      ∃ item other, items[place]? = some item ∧ others[place]? = some other ∧ R item other := by
  induction hpairs generalizing place with
  | nil => exact .inl ⟨rfl, rfl⟩
  | cons hfirst _ ih =>
    cases place with
    | zero => exact .inr ⟨_, _, rfl, rfl, hfirst⟩
    | succ place => exact ih place

/-- Lists stay paired when a pair is put in at one place. Beyond the end neither list changes. -/
theorem forall₂_set {α β : Type} {R : α → β → Prop} {items : List α} {others : List β}
    (hpairs : List.Forall₂ R items others) (place : Nat) {item : α} {other : β}
    (hpair : R item other) : List.Forall₂ R (items.set place item) (others.set place other) := by
  induction hpairs generalizing place with
  | nil => exact .nil
  | cons hfirst hrest ih =>
    cases place with
    | zero => exact .cons hpair hrest
    | succ place => exact .cons hfirst (ih place)

section

variable {α β : Type} [Ord α] [Std.TransOrd α] [Std.LawfulEqOrd α] {map : Std.ExtTreeMap α β}

/-- What is said of every entry in the list of a map is said of every key that is found. -/
theorem forall_mem_toList_iff {P : α → β → Prop} :
    (∀ entry ∈ map.toList, P entry.1 entry.2) ↔
      ∀ key value, map[key]? = some value → P key value := by
  simp only [Prod.forall, Std.ExtTreeMap.mem_toList_iff_getElem?_eq_some]

/-- What comes first in the list of a map comes at a key that all other keys before it are less
than. So "the first entry that fails" means the same for the list and for the look-up. -/
theorem exists_first_toList_iff {P Q : α → β → Prop} :
    (∃ before entry after, map.toList = before ++ entry :: after ∧
        (∀ earlier ∈ before, P earlier.1 earlier.2) ∧ Q entry.1 entry.2) ↔
      ∃ key value, map[key]? = some value ∧
        (∀ earlier, compare earlier key = .lt → ∀ value, map[earlier]? = some value →
          P earlier value) ∧ Q key value := by
  have hordered := @Std.ExtTreeMap.ordered_keys_toList α β compare map _
  constructor
  · rintro ⟨before, ⟨key, value⟩, after, hsplit, hbefore, hentry⟩
    rw [hsplit, List.pairwise_append, List.pairwise_cons] at hordered
    refine ⟨key, value, ?_, fun earlier hlt other hother => ?_, hentry⟩
    · rw [← Std.ExtTreeMap.mem_toList_iff_getElem?_eq_some, hsplit]
      exact List.mem_append_right before List.mem_cons_self
    · rw [← Std.ExtTreeMap.mem_toList_iff_getElem?_eq_some, hsplit, List.mem_append,
        List.mem_cons] at hother
      rcases hother with hmem | heq | hmem
      · exact hbefore _ hmem
      · obtain ⟨rfl, -⟩ := Prod.mk.inj heq
        simp at hlt
      · have hgt := hordered.2.1.1 _ hmem
        have hcycle := Std.TransCmp.lt_trans hgt hlt
        simp at hcycle
  · rintro ⟨key, value, hentry, hbefore, hfirst⟩
    rw [← Std.ExtTreeMap.mem_toList_iff_getElem?_eq_some] at hentry
    obtain ⟨before, after, hsplit⟩ := List.append_of_mem hentry
    refine ⟨before, (key, value), after, hsplit, fun earlier hearlier => ?_, hfirst⟩
    rw [hsplit, List.pairwise_append] at hordered
    refine hbefore earlier.1 (hordered.2.2 earlier hearlier _ List.mem_cons_self) earlier.2 ?_
    rw [← Std.ExtTreeMap.mem_toList_iff_getElem?_eq_some, hsplit]
    exact List.mem_append_left _ hearlier

/-- Looking a key up in the list of a map is looking it up in the map, since no key comes twice
there. -/
theorem lookup_toList [BEq α] [LawfulBEq α] (map : Std.ExtTreeMap α β) (key : α) :
    map.toList.lookup key = map[key]? := by
  cases hfound : map[key]? with
  | none =>
    rw [List.lookup_eq_none_iff]
    rintro ⟨other, value⟩ hmem
    rw [Std.ExtTreeMap.mem_toList_iff_getElem?_eq_some] at hmem
    simp only [bne_iff_ne]
    rintro rfl
    cases hfound.symm.trans hmem
  | some value =>
    rw [← Std.ExtTreeMap.mem_toList_iff_getElem?_eq_some] at hfound
    obtain ⟨before, after, hsplit⟩ := List.append_of_mem hfound
    rw [List.lookup_eq_some_iff]
    refine ⟨before, after, hsplit, fun other hother => ?_⟩
    have hordered := @Std.ExtTreeMap.ordered_keys_toList α β compare map _
    rw [hsplit, List.pairwise_append] at hordered
    have hlt := hordered.2.2 other hother _ List.mem_cons_self
    simp only [bne_iff_ne]
    rintro rfl
    simp at hlt

end

end EntityWorld
