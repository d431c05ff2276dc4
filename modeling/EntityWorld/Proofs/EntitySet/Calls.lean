import EntityWorld.Proofs.EntitySet

namespace EntityWorld.EntitySet

/-- What one collection of entities can be asked to do. Sets with slots and plain lists are both
instances, so a call can be made on either. -/
structure Interface (α : Type) where
  empty : α
  insert : α → EntityId → Bool × α
  remove : α → EntityId → Bool × α
  compact : α → α

namespace Interface

/-- Sets of entities with their slots. -/
def slotted : Interface EntitySet where
  empty := .empty
  insert := EntitySet.insert
  remove := EntitySet.remove
  compact := EntitySet.compact

/-- Plain lists, in which there is nothing to close up. -/
def plain : Interface (List EntityId) where
  empty := []
  insert members entity :=
    if entity ∈ members then (false, members) else (true, members ++ [entity])
  remove members entity :=
    if entity ∈ members then (true, members.erase entity) else (false, members)
  compact members := members

end Interface

/-- A call on one of several collections, which have numbers in the order of their creation. A clone
is a new collection. Nobody outside asks for `compact`, which is here since a set closes up its
slots at moments of its own. -/
inductive Call where
  | create
  | insert (number : Nat) (entity : EntityId)
  | remove (number : Nat) (entity : EntityId)
  | clear (number : Nat)
  | clone (number : Nat)
  | compact (number : Nat)

namespace Call

variable {α β : Type}

/-- Changes the collection with a number, if there is one. -/
def change (collections : List α) (number : Nat) (work : α → Option Bool × α) :
    Option Bool × List α :=
  match collections[number]? with
  | none => (none, collections)
  | some collection => ((work collection).1, collections.set number (work collection).2)

/-- The answer of a call, if it gives one, and the collections that it leaves. -/
def run (interface : Interface α) (collections : List α) : Call → Option Bool × List α
  | create => (none, collections ++ [interface.empty])
  | insert number entity =>
    change collections number fun collection => (interface.insert collection entity).map some id
  | remove number entity =>
    change collections number fun collection => (interface.remove collection entity).map some id
  | clear number => change collections number fun _ => (none, interface.empty)
  | clone number => (none, collections ++ collections[number]?.toList)
  | compact number => change collections number fun collection => (none, interface.compact collection)

/-- The answers of calls that are made one after another, and the collections that they leave. -/
def runAll (interface : Interface α) : List Call → List α → List (Option Bool) × List α
  | [], collections => ([], collections)
  | call :: calls, collections =>
    let (answer, next) := call.run interface collections
    let (answers, last) := runAll interface calls next
    (answer :: answers, last)

end Call

/-- Collections that are related give the same answers, and are related again afterwards. Each
operation asks for this on its own; whole sequences of calls follow. -/
structure Interface.Simulates {α β : Type} (R : α → β → Prop) (first : Interface α)
    (second : Interface β) : Prop where
  empty : R first.empty second.empty
  insert {a : α} {b : β} (entity : EntityId) : R a b →
    (first.insert a entity).1 = (second.insert b entity).1 ∧
      R (first.insert a entity).2 (second.insert b entity).2
  remove {a : α} {b : β} (entity : EntityId) : R a b →
    (first.remove a entity).1 = (second.remove b entity).1 ∧
      R (first.remove a entity).2 (second.remove b entity).2
  compact {a : α} {b : β} : R a b → R (first.compact a) (second.compact b)

namespace Call

variable {α β : Type} {R : α → β → Prop} {first : Interface α} {second : Interface β}
  {collections : List α} {others : List β}

/-- Changing the collections of one number keeps two families paired. A number that neither has
changes nothing on both sides. -/
theorem change_congr (hpairs : List.Forall₂ R collections others) (number : Nat)
    {work : α → Option Bool × α} {otherWork : β → Option Bool × β}
    (hwork : ∀ a b, R a b → (work a).1 = (otherWork b).1 ∧ R (work a).2 (otherWork b).2) :
    (change collections number work).1 = (change others number otherWork).1 ∧
      List.Forall₂ R (change collections number work).2 (change others number otherWork).2 := by
  unfold change
  rcases getElem?_forall₂ hpairs number with ⟨hfirst, hsecond⟩ | ⟨a, b, hfirst, hsecond, hpair⟩
  · rw [hfirst, hsecond]
    exact ⟨rfl, hpairs⟩
  · rw [hfirst, hsecond]
    exact ⟨(hwork a b hpair).1, forall₂_set hpairs number (hwork a b hpair).2⟩

/-- One call gives the same answer on both sides, and pairs up what it leaves, a clone with the
clone of its partner. -/
theorem run_congr (hsimulates : first.Simulates R second)
    (hpairs : List.Forall₂ R collections others) (call : Call) :
    (call.run first collections).1 = (call.run second others).1 ∧
      List.Forall₂ R (call.run first collections).2 (call.run second others).2 := by
  cases call with
  | create => exact ⟨rfl, List.rel_append hpairs (.cons hsimulates.empty .nil)⟩
  | insert number entity =>
    refine change_congr hpairs number fun a b hpair => ?_
    exact (hsimulates.insert entity hpair).imp_left (congrArg some)
  | remove number entity =>
    refine change_congr hpairs number fun a b hpair => ?_
    exact (hsimulates.remove entity hpair).imp_left (congrArg some)
  | clear number => exact change_congr hpairs number fun _ _ _ => ⟨rfl, hsimulates.empty⟩
  | clone number =>
    refine ⟨rfl, List.rel_append hpairs ?_⟩
    rcases getElem?_forall₂ hpairs number with ⟨hfirst, hsecond⟩ | ⟨a, b, hfirst, hsecond, hpair⟩
    · rw [hfirst, hsecond]
      exact .nil
    · rw [hfirst, hsecond]
      exact .cons hpair .nil
  | compact number =>
    exact change_congr hpairs number fun _ _ hpair => ⟨rfl, hsimulates.compact hpair⟩

/-- Calls one after another give the same answers on both sides. The induction runs over any paired
families, since each call may add to them. -/
theorem runAll_congr (hsimulates : first.Simulates R second)
    (hpairs : List.Forall₂ R collections others) (calls : List Call) :
    (runAll first calls collections).1 = (runAll second calls others).1 ∧
      List.Forall₂ R (runAll first calls collections).2 (runAll second calls others).2 := by
  induction calls generalizing collections others with
  | nil => exact ⟨rfl, hpairs⟩
  | cons call calls ih =>
    obtain ⟨hanswer, hnext⟩ := run_congr hsimulates hpairs call
    obtain ⟨hanswers, hlast⟩ := ih hnext
    exact ⟨List.cons_eq_cons.mpr ⟨hanswer, hanswers⟩, hlast⟩

/-- What calls keep is true of every set that they lead to. Clones need no case of their own here: a
clone is the set that it was made from. -/
theorem forall_runAll {P : EntitySet → Prop} (hkept : Kept P)
    (hcompact : ∀ {set : EntitySet}, P set → P set.compact) (calls : List Call) :
    ∀ set ∈ (runAll .slotted calls []).2, P set := by
  have hsame : Interface.slotted.Simulates (fun set other => set = other ∧ P set)
      Interface.slotted := by
    refine ⟨⟨rfl, hkept.empty⟩, ?_, ?_, ?_⟩
    · rintro set _ entity ⟨rfl, hset⟩
      exact ⟨rfl, rfl, hkept.insert entity hset⟩
    · rintro set _ entity ⟨rfl, hset⟩
      exact ⟨rfl, rfl, hkept.remove entity hset⟩
    · rintro set _ ⟨rfl, hset⟩
      exact ⟨rfl, hcompact hset⟩
  have hpairs := (runAll_congr hsame .nil calls).2
  exact fun set hset => (List.forall₂_same.mp hpairs set hset).2

end Call

/-- A set says of a newcomer that it came in, and of a member that it did not. -/
theorem fst_insert (set : EntitySet) (entity : EntityId) :
    (set.insert entity).1 = !set.contains entity := by
  rw [insert]
  split
  case isTrue hmem => rw [hmem]; rfl
  case isFalse hnot => rw [Bool.eq_false_iff.mpr hnot]; rfl

theorem fst_remove (set : EntitySet) (entity : EntityId) :
    (set.remove entity).1 = set.contains entity := by
  rw [contains, Std.ExtTreeMap.contains_eq_isSome_getElem?, remove]
  cases set.index[entity]? <;> rfl

/-- As many members are in the index as in the slots. The index counts its entries, and each of them
points at a slot of its own. -/
theorem Valid.size_eq {set : EntitySet} (hset : set.Valid) : set.size = set.toList.length := by
  have hperm : set.index.keys.Perm set.toList := by
    rw [List.perm_ext_iff_of_nodup Std.ExtTreeMap.nodup_keys hset.nodup_toList]
    intro entity
    rw [Std.ExtTreeMap.mem_keys, hset.mem_toList_iff]
    rfl
  rw [size, ← Std.ExtTreeMap.length_keys, hperm.length_eq]

/-- A set has the members of a list in their order, says so when it is asked, and has each of them
in the slot in which it looks for it. That slot is never beyond the last one. -/
structure Shows (set : EntitySet) (members : List EntityId) : Prop where
  nodup : members.Nodup
  toList : set.toList = members
  size : set.size = members.length
  isEmpty : set.isEmpty = members.isEmpty
  contains : ∀ entity, set.contains entity = decide (entity ∈ members)
  slot : ∀ (entity : EntityId) (place : Nat), set.index[entity]? = some place →
    place < set.slots.size ∧ set.slots[place]? = some (some entity)

/-- A set whose index and slots agree looks like the list of its members in every respect. -/
theorem Valid.shows {set : EntitySet} (hset : set.Valid) : set.Shows set.toList where
  nodup := hset.nodup_toList
  toList := rfl
  size := hset.size_eq
  isEmpty := by
    have hempty : set.isEmpty = (set.size == 0) := Std.ExtTreeMap.isEmpty_eq_size_beq_zero
    rw [hempty, hset.size_eq]
    cases set.toList <;> rfl
  contains entity := by
    rw [Bool.eq_iff_iff, decide_eq_true_iff, hset.mem_toList_iff]
  slot entity place hfound := ⟨hset.lt_size hfound, (hset entity place).mp hfound⟩

/-- Sets do what plain lists of their members do. Closing up the slots corresponds to doing nothing,
so that it may happen at any moment. -/
theorem simulates_plain :
    Interface.slotted.Simulates (fun set members => set.Valid ∧ set.toList = members)
      Interface.plain where
  empty := ⟨.empty, rfl⟩
  insert {set members} entity := by
    rintro ⟨hset, rfl⟩
    have hanswer := set.fst_insert entity
    have hmembers := hset.toList_insert entity
    rw [hset.shows.contains] at hanswer
    simp only [Interface.slotted, Interface.plain]
    split
    case isTrue hmem =>
      rw [if_pos hmem] at hmembers
      rw [decide_eq_true hmem] at hanswer
      exact ⟨hanswer, hset.insert entity, hmembers⟩
    case isFalse hnot =>
      rw [if_neg hnot] at hmembers
      rw [decide_eq_false hnot] at hanswer
      exact ⟨hanswer, hset.insert entity, hmembers⟩
  remove {set members} entity := by
    rintro ⟨hset, rfl⟩
    have hanswer := set.fst_remove entity
    have hmembers := hset.toList_remove entity
    rw [hset.shows.contains] at hanswer
    simp only [Interface.slotted, Interface.plain]
    split
    case isTrue hmem =>
      rw [decide_eq_true hmem] at hanswer
      exact ⟨hanswer, hset.remove entity, hmembers⟩
    case isFalse hnot =>
      rw [List.erase_of_not_mem hnot] at hmembers
      rw [decide_eq_false hnot] at hanswer
      exact ⟨hanswer, hset.remove entity, hmembers⟩
  compact {set members} := by
    rintro ⟨hset, rfl⟩
    exact ⟨hset.compact, set.toList_compact⟩

/-- Whatever calls are made on any number of sets, clones among them, the answers are those of lists
without repetitions to the same calls, and each set looks like its list. The slots may be closed up
at any moment in between. -/
theorem runAll_shows_plain (calls : List Call) :
    (Call.runAll .slotted calls []).1 = (Call.runAll .plain calls []).1 ∧
      List.Forall₂ Shows (Call.runAll .slotted calls []).2 (Call.runAll .plain calls []).2 := by
  obtain ⟨hanswers, hpairs⟩ := Call.runAll_congr simulates_plain .nil calls
  refine ⟨hanswers, hpairs.imp fun set members hpair => ?_⟩
  obtain ⟨hset, rfl⟩ := hpair
  exact hset.shows

end EntityWorld.EntitySet
