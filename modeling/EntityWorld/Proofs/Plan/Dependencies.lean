import EntityWorld.Proofs.Plan
import EntityWorld.Proofs.Plan.Digraph
import EntityWorld.Proofs.Traversal

namespace EntityWorld

variable {S : Schema} {σ : Type}

/-- In a list, all items of one kind come before all items of another. Either kind may be absent. -/
def AllBefore {α : Type} (isFirst isSecond : α → Prop) (items : List α) : Prop :=
  ∀ (m n : Nat) (first second : α), items[m]? = some first → items[n]? = some second →
    isFirst first → isSecond second → m < n

/-- Items of one kind come before those of another if none is behind one of the other kind, and none
is of both. -/
theorem allBefore_iff_pairwise {α : Type} {isFirst isSecond : α → Prop} {items : List α} :
    AllBefore isFirst isSecond items ↔
      (items.Pairwise fun earlier later => isSecond earlier → ¬isFirst later) ∧
        ∀ item ∈ items, isFirst item → ¬isSecond item := by
  constructor
  · intro hbefore
    refine ⟨List.pairwise_iff_getElem.mpr fun n m hn hm hlt hsecond hfirst => ?_, ?_⟩
    · have hback := hbefore m n _ _ (List.getElem?_eq_getElem hm) (List.getElem?_eq_getElem hn)
        hfirst hsecond
      exact Nat.lt_asymm hlt hback
    · intro item hitem hfirst hsecond
      obtain ⟨m, hm⟩ := List.getElem?_of_mem hitem
      exact Nat.lt_irrefl m (hbefore m m item item hm hm hfirst hsecond)
  · rintro ⟨hpairs, hkinds⟩ m n first second hm hn hfirst hsecond
    obtain ⟨hmlt, rfl⟩ := List.getElem?_eq_some_iff.mp hm
    obtain ⟨hnlt, rfl⟩ := List.getElem?_eq_some_iff.mp hn
    by_contra hle
    rcases Nat.eq_or_lt_of_le (Nat.le_of_not_lt hle) with rfl | hlt
    · exact hkinds _ (List.getElem_mem hmlt) hfirst hsecond
    · exact List.pairwise_iff_getElem.mp hpairs n m hnlt hmlt hlt hsecond hfirst

/-- Without repetitions, what is found first at an earlier place is what stands there. -/
theorem pairwise_idxOf_lt {α : Type} [BEq α] [LawfulBEq α] {items : List α} (hnodup : items.Nodup) :
    items.Pairwise fun earlier later => items.idxOf earlier < items.idxOf later := by
  refine List.pairwise_iff_getElem.mpr fun m n hm hn hlt => ?_
  rwa [hnodup.idxOf_getElem, hnodup.idxOf_getElem]

namespace Plan

section Dependencies

variable (systems : List (System S σ))

/-- A system has to run before another, as the other declares. -/
def Precedes (i j : Fin systems.length) : Prop :=
  (systems.get i).id ∈ (systems.get j).after

/-- A system has to run before another, as the other or a chain of systems in between declares. -/
def Before : Fin systems.length → Fin systems.length → Prop :=
  Relation.TransGen (Precedes systems)

theorem leads_graph_iff {i j : Fin systems.length} :
    (graph systems).Leads i j ↔ Before systems i j := by
  have hedge : (fun i j => (graph systems).edge i j = true) = Precedes systems := by
    funext i j
    exact propext List.contains_iff_mem
  rw [Digraph.Leads, hedge]
  rfl

/-- Systems are put in an order in which each comes behind all that it depends on. -/
theorem topological_of_systemOrder {order : List (Fin systems.length)}
    (horder : systemOrder systems = .ok order) : (graph systems).Topological order := by
  apply Digraph.topological_of_sort
  unfold systemOrder at horder
  cases hsort : (graph systems).sort with
  | error blocked => simp [hsort, Except.mapError] at horder
  | ok sorted =>
    rw [hsort] at horder
    rw [Except.ok.inj horder]

end Dependencies

/-- The lines of a plan stand for the entry points of systems in an order: for each of them once,
for those of one system together and one after another, and behind those of all systems that have to
run before. -/
structure Follows (plan : Plan) (systems : List (System S σ)) (seed : UInt32)
    (order : List (Fin systems.length)) : Prop where
  /-- Every system has its place in the order. -/
  perm : order.Perm (List.finRange systems.length)
  /-- Every line stands for an entry point, describes it and has the name of its system. -/
  stands : ∀ line ∈ plan, ∃ system ∈ systems[line.system]?, line.name = system.id.name ∧
    ∃ shape ∈ system.shapes[line.shape]?, line.Describes shape seed
  /-- Exactly one line stands for each entry point. -/
  once : ∀ (i : Fin systems.length) (shape : Fin (systems.get i).shapes.length),
    plan.countP (fun line => line.system = i.val ∧ line.shape = shape.val) = 1
  /-- The lines of a system stand together, in the order of its entry points. -/
  together : ∀ i : Fin systems.length, ∃ before own after, plan = before ++ own ++ after ∧
    own.map Line.shape = List.range (systems.get i).shapes.length ∧
    (∀ line ∈ own, line.system = i) ∧ ∀ line ∈ before ++ after, line.system ≠ i
  /-- The lines of different systems come in the order of the systems. -/
  ordered : ∀ i j, order.idxOf i < order.idxOf j →
    AllBefore (fun line : Line => line.system = i.val) (fun line => line.system = j.val) plan
  /-- All lines of a system come before those of the systems that it has to run before. -/
  respects : ∀ i j, Before systems i j →
    AllBefore (fun line : Line => line.system = i.val) (fun line => line.system = j.val) plan

/-- The lines of a system stand for its shapes in the order in which these were added. -/
theorem map_shape_linesOf (system : System S σ) (number : Nat) (seed : UInt32) :
    (linesOf system number seed).map Line.shape = List.range system.shapes.length := by
  apply List.ext_getElem <;> simp [linesOf]

theorem map_name_linesOf (system : System S σ) (number : Nat) (seed : UInt32) :
    (linesOf system number seed).map Line.name =
      List.replicate system.shapes.length system.id.name := by
  apply List.ext_getElem <;> simp [linesOf]

variable {systems : List (System S σ)} {seed : UInt32} {order : List (Fin systems.length)}

/-- In an order without repetitions the lines of a system stand together, for it has its turn just
once. -/
theorem exists_layOut_eq (hnodup : order.Nodup) {i : Fin systems.length} (hi : i ∈ order)
    (seed : UInt32) :
    ∃ before after, layOut systems seed order = before ++ linesOf (systems.get i) i seed ++ after ∧
      ∀ line ∈ before ++ after, line.system ≠ i := by
  obtain ⟨earlier, later, rfl⟩ := List.append_of_mem hi
  have hothers : i ∉ earlier ++ later :=
    (List.nodup_cons.mp (List.perm_middle.nodup_iff.mp hnodup)).1
  refine ⟨layOut systems seed earlier, layOut systems seed later, by simp [layOut], ?_⟩
  intro line hline hsystem
  have hlaid : line ∈ layOut systems seed (earlier ++ later) := by
    simpa [layOut] using hline
  obtain ⟨other, hother, hmem⟩ := mem_layOut_iff.mp hlaid
  obtain rfl : i = other := Fin.ext (hsystem.symm.trans (mem_linesOf hmem).1)
  exact hothers hother

/-- Exactly one line stands for each shape, since the lines of a system are laid out once. -/
theorem countP_layOut (hnodup : order.Nodup) {i : Fin systems.length} (hi : i ∈ order)
    (shape : Fin (systems.get i).shapes.length) :
    (layOut systems seed order).countP
      (fun line => line.system = i.val ∧ line.shape = shape.val) = 1 := by
  obtain ⟨before, after, hsplit, hothers⟩ := exists_layOut_eq hnodup hi seed
  have hnone {lines : Plan} (hlines : ∀ line ∈ lines, line.system ≠ i) :
      lines.countP (fun line => line.system = i.val ∧ line.shape = shape.val) = 0 := by
    refine List.countP_eq_zero.mpr fun line hline => ?_
    simp [hlines line hline]
  have hown : (linesOf (systems.get i) i seed).countP
      (fun line => line.system = i.val ∧ line.shape = shape.val) =
      ((linesOf (systems.get i) i seed).map Line.shape).count shape.val := by
    rw [List.count, List.countP_map]
    refine List.countP_congr fun line hline => ?_
    simp [(mem_linesOf hline).1]
  rw [hsplit, List.countP_append, List.countP_append, hown, map_shape_linesOf,
    hnone fun line hline => hothers line (List.mem_append_left after hline),
    hnone fun line hline => hothers line (List.mem_append_right before hline),
    List.count_eq_one_of_mem List.nodup_range (List.mem_range.mpr shape.isLt)]

theorem allBefore_layOut (hnodup : order.Nodup) {i j : Fin systems.length}
    (hlt : order.idxOf i < order.idxOf j) :
    AllBefore (fun line : Line => line.system = i.val) (fun line => line.system = j.val)
      (layOut systems seed order) := by
  have hne : i ≠ j := by
    rintro rfl
    exact Nat.lt_irrefl _ hlt
  refine allBefore_iff_pairwise.mpr ⟨List.pairwise_flatMap.mpr ⟨fun k _ => ?_, ?_⟩, ?_⟩
  · refine List.pairwise_of_forall_mem_list fun earlier hearlier later hlater hj hi => hne ?_
    rw [(mem_linesOf hearlier).1] at hj
    rw [(mem_linesOf hlater).1] at hi
    exact Fin.ext (hi.symm.trans hj)
  · refine (pairwise_idxOf_lt hnodup).imp fun {first second} hback => ?_
    intro earlier hearlier later hlater hj hi
    obtain rfl : first = j := Fin.ext ((mem_linesOf hearlier).1.symm.trans hj)
    obtain rfl : second = i := Fin.ext ((mem_linesOf hlater).1.symm.trans hi)
    exact Nat.lt_asymm hlt hback
  · intro line _ hi hj
    exact hne (Fin.ext (hi.symm.trans hj))

/-- Laid out in an order that the dependencies allow, a plan has one line for each shape, those of a
system together, and each system behind all that it depends on. -/
theorem follows_layOut (horder : (graph systems).Topological order) (seed : UInt32) :
    Follows (layOut systems seed order) systems seed order := by
  have hnodup : order.Nodup := horder.perm.nodup_iff.mpr (List.nodup_finRange _)
  have hall (i : Fin systems.length) : i ∈ order := horder.perm.mem_iff.mpr (List.mem_finRange i)
  refine ⟨horder.perm, fun line hline => ?_, fun i shape => ?_, fun i => ?_, fun i j hlt => ?_,
    fun i j hbefore => ?_⟩
  · obtain ⟨i, _, hmem⟩ := mem_layOut_iff.mp hline
    obtain ⟨hsystem, hshape⟩ := mem_linesOf hmem
    have hname := map_name_linesOf (systems.get i) i seed ▸ List.mem_map_of_mem hmem
    refine ⟨systems.get i, ?_, List.eq_of_mem_replicate hname, hshape⟩
    rw [hsystem]
    exact List.getElem?_eq_getElem i.isLt
  · exact countP_layOut hnodup (hall i) shape
  · obtain ⟨before, after, hsplit, hothers⟩ := exists_layOut_eq hnodup (hall i) seed
    exact ⟨before, _, after, hsplit, map_shape_linesOf (systems.get i) i seed,
      fun line hline => (mem_linesOf hline).1, hothers⟩
  · exact allBefore_layOut hnodup hlt
  · exact allBefore_layOut hnodup (horder.forward ((leads_graph_iff systems).mpr hbefore))

theorem withoutRepeats_replicate_append {name : String} {rest : List String}
    (hrest : name ∉ rest) (count : Nat) :
    withoutRepeats (List.replicate (count + 1) name ++ rest) = name :: withoutRepeats rest := by
  induction count with
  | zero =>
    cases rest with
    | nil => rfl
    | cons next rest =>
      have hne : name ≠ next := fun heq => hrest (heq ▸ List.mem_cons_self)
      simp [withoutRepeats, hne]
  | succ count ih =>
    rw [List.replicate_succ, List.replicate_succ, List.cons_append, List.cons_append,
      withoutRepeats, if_pos rfl, ← List.cons_append, ← List.replicate_succ, ih]

/-- Names that are each repeated some times are left once, if they are repeated at all. A system
without entry points has no line and so is not named. -/
theorem withoutRepeats_flatMap {ι : Type} {name : ι → String} {count : ι → Nat} {items : List ι}
    (hnames : (items.map name).Nodup) :
    withoutRepeats (items.flatMap fun item => List.replicate (count item) (name item)) =
      (items.filter fun item => count item ≠ 0).map name := by
  induction items with
  | nil => rfl
  | cons item items ih =>
    rw [List.map_cons, List.nodup_cons] at hnames
    rw [List.flatMap_cons]
    cases hcount : count item with
    | zero => simp [hcount, ih hnames.2]
    | succ more =>
      have hlater : name item ∉
          items.flatMap fun other => List.replicate (count other) (name other) := by
        intro hmem
        obtain ⟨other, hother, hname⟩ := List.mem_flatMap.mp hmem
        exact hnames.1 (List.mem_map.mpr ⟨other, hother, (List.eq_of_mem_replicate hname).symm⟩)
      rw [withoutRepeats_replicate_append hlater, ih hnames.2]
      simp [hcount]

theorem nodup_names (hnames : (systems.map fun system => system.id.name).Nodup)
    (hperm : order.Perm (List.finRange systems.length)) :
    (order.map fun i => (systems.get i).id.name).Nodup := by
  have hall : (List.finRange systems.length).map (fun i => (systems.get i).id.name) =
      systems.map fun system => system.id.name := by
    conv_rhs => rw [← List.map_getElem_finRange systems, List.map_map]
    rfl
  rwa [(hperm.map _).nodup_iff, hall]

/-- Where systems have different names, the names of those that have entry points are left, in the
order of the systems. -/
theorem order_layOut (hnames : (order.map fun i => (systems.get i).id.name).Nodup) (seed : UInt32) :
    Plan.order (layOut systems seed order) =
      (order.filter fun i => (systems.get i).shapes ≠ []).map fun i => (systems.get i).id.name := by
  have hlines : (layOut systems seed order).map Line.name =
      order.flatMap fun i => List.replicate (systems.get i).shapes.length (systems.get i).id.name := by
    rw [layOut, List.map_flatMap]
    exact List.flatMap_congr fun i _ => map_name_linesOf (systems.get i) i seed
  rw [Plan.order, hlines, withoutRepeats_flatMap hnames]
  simp

/-- Systems are the same but for what they declare about systems that are not among them, and for
how often they declare something. -/
def SameAmong (systems others : List (System S σ)) : Prop :=
  List.Forall₂ (fun system other => other.id = system.id ∧ other.shapes = system.shapes ∧
    ∀ registered ∈ systems, registered.id ∈ other.after ↔ registered.id ∈ system.after)
    systems others

/-- A system without its declarations. -/
def bare (system : System S σ) : System S σ :=
  { system with after := [] }

/-- The plan for systems with dependencies that a graph tells. -/
def expand (graph : Digraph) (systems : List (System S σ)) (seed : UInt32) : Except Error Plan :=
  (graph.sort.mapError fun blocked =>
    .dependencyCycle (blocked.map fun (i : Fin graph.size) =>
      systems[i.val]?.elim "" fun system => system.id.name)).map
    fun order => order.flatMap fun (i : Fin graph.size) =>
      systems[i.val]?.elim [] fun system => linesOf system i seed

/-- A plan depends on the declarations only through the graph. What the systems have besides is kept
whatever they declare. -/
theorem build_eq_expand (systems : List (System S σ)) (seed : UInt32) :
    build systems seed = expand (graph systems) (systems.map bare) seed := by
  have hfound (i : Fin systems.length) : (systems.map bare)[i.val]? = some (bare systems[i]) := by
    rw [List.getElem?_map, List.getElem?_eq_getElem i.isLt]
    rfl
  have hname (i : Fin systems.length) :
      systems[i].id.name = (systems.map bare)[i.val]?.elim "" fun system => system.id.name := by
    rw [hfound]
    rfl
  have hlines (i : Fin systems.length) :
      linesOf systems[i] i seed =
        (systems.map bare)[i.val]?.elim [] fun system => linesOf system i seed := by
    rw [hfound]
    rfl
  unfold build systemOrder expand
  simp only [hname, hlines]
  rfl

/-- Edges ask which of the systems are declared, and not how often or next to which others. -/
theorem graph_eq_of_sameAmong {others : List (System S σ)} (hsame : SameAmong systems others) :
    graph others = graph systems := by
  obtain ⟨hlength, hpairs⟩ := List.forall₂_iff_get.mp hsame
  refine Digraph.eq_of_edge hlength.symm fun i j => ?_
  have hid : others[i].id = systems[i.cast hlength.symm].id :=
    (hpairs i (hlength ▸ i.isLt) i.isLt).1
  obtain ⟨-, -, hafter⟩ := hpairs j (hlength ▸ j.isLt) j.isLt
  have hedge : others[i].id ∈ others[j].after ↔
      systems[i.cast hlength.symm].id ∈ systems[j.cast hlength.symm].after := by
    rw [hid]
    exact hafter _ (List.getElem_mem _)
  rw [Bool.eq_iff_iff]
  exact List.contains_iff_mem.trans (hedge.trans List.contains_iff_mem.symm)

/-- What systems declare about others that are not among them makes no difference to the plan, and
neither does how often they declare something. -/
theorem build_eq_of_sameAmong {others : List (System S σ)} (hsame : SameAmong systems others)
    (seed : UInt32) : build others seed = build systems seed := by
  have hbare : others.map bare = systems.map bare :=
    map_eq_map_of_forall₂ hsame fun system other hpair => by
      obtain ⟨hid, hshapes, -⟩ := hpair
      rw [bare, bare, hid, hshapes]
  rw [build_eq_expand, build_eq_expand, graph_eq_of_sameAmong hsame, hbare]

end Plan

end EntityWorld
