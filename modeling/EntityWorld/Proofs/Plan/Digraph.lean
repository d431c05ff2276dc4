import EntityWorld.Plan.Digraph
import Mathlib.Data.List.FinRange
import Mathlib.Data.List.Perm.Subperm
import Mathlib.Logic.Relation

namespace EntityWorld.Digraph

variable {graph : Digraph}

/-- Graphs of one size are the same if they have the same edges. Their vertices are of two types
until the sizes are known to be one. -/
theorem eq_of_edge {other : Digraph} (hsize : graph.size = other.size)
    (hedge : ∀ i j, graph.edge i j = other.edge (i.cast hsize) (j.cast hsize)) : graph = other := by
  obtain ⟨size, edge⟩ := graph
  obtain ⟨otherSize, otherEdge⟩ := other
  obtain rfl : size = otherSize := hsize
  obtain rfl : edge = otherEdge := funext fun i => funext fun j => hedge i j
  rfl

theorem mem_insertAscending_iff {n : Nat} {vertex other : Fin n} {vertices : List (Fin n)} :
    other ∈ insertAscending vertex vertices ↔ other = vertex ∨ other ∈ vertices := by
  induction vertices with
  | nil => simp [insertAscending]
  | cons first rest ih =>
    rw [insertAscending]
    split
    · simp
    · split
      case isTrue heq => simp [heq]
      case isFalse => simp only [List.mem_cons, ih, or_left_comm]

/-- Inserting a new vertex keeps the list ascending, so the first of the ready vertices is always
the least. -/
theorem pairwise_insertAscending {n : Nat} (vertex : Fin n) {vertices : List (Fin n)}
    (hascending : vertices.Pairwise (· < ·)) :
    (insertAscending vertex vertices).Pairwise (· < ·) := by
  induction vertices with
  | nil => exact List.pairwise_singleton _ _
  | cons first rest ih =>
    obtain ⟨hfirst, hrest⟩ := List.pairwise_cons.mp hascending
    rw [insertAscending]
    split
    case isTrue hlt =>
      refine hascending.cons fun other hother => ?_
      rcases List.mem_cons.mp hother with rfl | hmem
      · exact hlt
      · exact hlt.trans (hfirst other hmem)
    case isFalse hnot =>
      split
      · exact hascending
      case isFalse hne =>
        refine (ih hrest).cons fun other hother => ?_
        rcases mem_insertAscending_iff.mp hother with rfl | hmem
        · omega
        · exact hfirst other hmem

/-- How many edges lead to a vertex from vertices that are still there when some are taken away.
This is what the counters of a sort are meant to hold. -/
def degreeWithout (graph : Digraph) (gone : List (Fin graph.size)) (vertex : Fin graph.size) :
    Nat :=
  (List.finRange graph.size).countP fun other => graph.edge other vertex && other ∉ gone

/-- While all vertices are there, the edges that lead to one are its degree. -/
theorem degreeWithout_nil (vertex : Fin graph.size) :
    graph.degreeWithout [] vertex = graph.degree vertex := by
  simp [degreeWithout, degree]

/-- No edge is left exactly if all vertices with an edge to this one are gone. -/
theorem degreeWithout_eq_zero_iff {gone : List (Fin graph.size)} {vertex : Fin graph.size} :
    graph.degreeWithout gone vertex = 0 ↔
      ∀ other, graph.edge other vertex = true → other ∈ gone := by
  simp [degreeWithout, List.countP_eq_zero]

/-- Taking one more vertex away takes its edges away, of which there is at most one to each
vertex. -/
theorem degreeWithout_cons {gone : List (Fin graph.size)} {first : Fin graph.size}
    (hfirst : first ∉ gone) (vertex : Fin graph.size) :
    graph.degreeWithout (first :: gone) vertex =
      if graph.edge first vertex then graph.degreeWithout gone vertex - 1
      else graph.degreeWithout gone vertex := by
  have hperm := List.perm_cons_erase (List.mem_finRange first)
  have hothers : ((List.finRange graph.size).erase first).countP
      (fun other => graph.edge other vertex && other ∉ first :: gone) =
      ((List.finRange graph.size).erase first).countP
        fun other => graph.edge other vertex && other ∉ gone := by
    refine List.countP_congr fun other hother => ?_
    have hne := ((List.nodup_finRange graph.size).mem_erase_iff.mp hother).1
    simp [hne]
  unfold degreeWithout
  rw [hperm.countP_eq, hperm.countP_eq, List.countP_cons, List.countP_cons, hothers]
  by_cases hedge : graph.edge first vertex = true <;> simp [hedge, hfirst]

/-- The counter of a vertex. -/
def Frontier.counter {n : Nat} (frontier : Frontier n) (vertex : Fin n) : Nat :=
  frontier.waiting.get vertex

/-- Setting one counter changes no other, whatever becomes of the ready vertices. -/
theorem Frontier.counter_set {n : Nat} (frontier : Frontier n) (first other : Fin n) (count : Nat)
    (ready : List (Fin n)) :
    ({ waiting := frontier.waiting.set first count first.isLt, ready } : Frontier n).counter other =
      if first = other then count else frontier.counter other := by
  rw [if_congr Fin.ext_iff rfl rfl]
  exact Vector.getElem_set first.isLt other.isLt

/-- A vertex that an edge leads to has its counter lowered, and becomes ready if that leaves it at
zero. -/
theorem release_cons_of_edge {vertex first : Fin graph.size}
    (hedge : graph.edge vertex first = true) (others : List (Fin graph.size))
    (frontier : Frontier graph.size) :
    let count := frontier.counter first - 1
    graph.release vertex (first :: others) frontier =
      graph.release vertex others
        { waiting := frontier.waiting.set first count first.isLt
          ready := if count = 0 then insertAscending first frontier.ready else frontier.ready } := by
  intro count
  rw [release, if_pos hedge]
  rfl

theorem release_cons_of_no_edge {vertex first : Fin graph.size}
    (hedge : ¬graph.edge vertex first = true) (others : List (Fin graph.size))
    (frontier : Frontier graph.size) :
    graph.release vertex (first :: others) frontier = graph.release vertex others frontier := by
  rw [release, if_neg hedge]

/-- Releasing vertices lowers the counters of those that an edge leads to, each once. The induction
is over the vertices that are still to be looked at. -/
theorem counter_release (vertex : Fin graph.size) {others : List (Fin graph.size)}
    (hnodup : others.Nodup) (frontier : Frontier graph.size) (other : Fin graph.size) :
    (graph.release vertex others frontier).counter other =
      if other ∈ others ∧ graph.edge vertex other = true then frontier.counter other - 1
      else frontier.counter other := by
  induction others generalizing frontier with
  | nil => simp [release]
  | cons first others ih =>
    obtain ⟨hfirst, hrest⟩ := List.nodup_cons.mp hnodup
    by_cases hedge : graph.edge vertex first = true
    · rw [release_cons_of_edge hedge, ih hrest, Frontier.counter_set]
      by_cases heq : first = other
      · subst heq
        simp [hfirst, hedge]
      · simp [heq, Ne.symm heq]
    · rw [release_cons_of_no_edge hedge, ih hrest]
      by_cases heq : first = other
      · subst heq
        simp [hedge]
      · simp [Ne.symm heq]

/-- Releasing vertices makes those ready to which the last edge led, and keeps those that were. -/
theorem mem_ready_release_iff (vertex : Fin graph.size) {others : List (Fin graph.size)}
    (hnodup : others.Nodup) (frontier : Frontier graph.size) {other : Fin graph.size} :
    other ∈ (graph.release vertex others frontier).ready ↔
      other ∈ frontier.ready ∨
        other ∈ others ∧ graph.edge vertex other = true ∧ frontier.counter other - 1 = 0 := by
  induction others generalizing frontier with
  | nil => simp [release]
  | cons first others ih =>
    obtain ⟨hfirst, hrest⟩ := List.nodup_cons.mp hnodup
    by_cases hedge : graph.edge vertex first = true
    · have hready : other ∈ (if frontier.counter first - 1 = 0
          then insertAscending first frontier.ready else frontier.ready) ↔
          other ∈ frontier.ready ∨ other = first ∧ frontier.counter first - 1 = 0 := by
        split
        case isTrue hzero =>
          rw [mem_insertAscending_iff, or_comm]
          exact or_congr_right ⟨fun heq => ⟨heq, hzero⟩, And.left⟩
        case isFalse hpositive =>
          exact ⟨Or.inl, fun hor => hor.resolve_right fun hboth => hpositive hboth.2⟩
      rw [release_cons_of_edge hedge, ih hrest, hready, Frontier.counter_set, List.mem_cons]
      by_cases heq : first = other
      · subst heq
        simp [hfirst, hedge]
      · simp [heq, Ne.symm heq]
    · rw [release_cons_of_no_edge hedge, ih hrest, List.mem_cons]
      by_cases heq : first = other
      · subst heq
        simp [hfirst, hedge]
      · simp [Ne.symm heq]

theorem pairwise_ready_release (vertex : Fin graph.size) (others : List (Fin graph.size))
    {frontier : Frontier graph.size} (hascending : frontier.ready.Pairwise (· < ·)) :
    (graph.release vertex others frontier).ready.Pairwise (· < ·) := by
  induction others generalizing frontier with
  | nil => exact hascending
  | cons first others ih =>
    rw [release]
    split
    · apply ih
      split
      · exact pairwise_insertAscending first hascending
      · exact hascending
    · exact ih hascending

/-- The counters and the ready vertices are those of a graph that some vertices are taken away from,
each of them with no edge leading to it any more. This is the invariant of the sort. -/
structure Frontier.Fits (frontier : Frontier graph.size) (gone : List (Fin graph.size)) : Prop where
  counter : ∀ vertex, frontier.counter vertex = graph.degreeWithout gone vertex
  ascending : frontier.ready.Pairwise (· < ·)
  mem_ready : ∀ vertex, vertex ∈ frontier.ready ↔
    vertex ∉ gone ∧ graph.degreeWithout gone vertex = 0
  gone : ∀ vertex ∈ gone, graph.degreeWithout gone vertex = 0

/-- The counters that a sort starts from are the degrees, and those without an edge are ready. -/
theorem fits_frontier : graph.frontier.Fits [] where
  counter vertex := by
    rw [degreeWithout_nil]
    exact Vector.getElem_ofFn vertex.isLt
  ascending := (List.pairwise_lt_finRange graph.size).filter _
  mem_ready vertex := by simp [frontier, degreeWithout_nil]
  gone := by simp

/-- Taking away a vertex that is ready leaves counters and ready vertices that fit again. This is
one step of the sort. -/
theorem Frontier.Fits.release {frontier : Frontier graph.size} {gone : List (Fin graph.size)}
    (hfits : frontier.Fits gone) {vertex : Fin graph.size} {ready : List (Fin graph.size)}
    (hready : frontier.ready = vertex :: ready) :
    (graph.release vertex (List.finRange graph.size) { frontier with ready }).Fits
      (vertex :: gone) := by
  obtain ⟨hfree, hzero⟩ := (hfits.mem_ready vertex).mp (hready ▸ List.mem_cons_self)
  have hascending := hready ▸ hfits.ascending
  have hnodup := List.nodup_finRange graph.size
  have hdegree := degreeWithout_cons hfree
  -- No edge leads back from a vertex that is still there to one that is gone or ready.
  have hback {other : Fin graph.size} (hother : graph.degreeWithout gone other = 0) :
      ¬graph.edge vertex other = true := fun hedge =>
    hfree (degreeWithout_eq_zero_iff.mp hother vertex hedge)
  have hcounter (other : Fin graph.size) :
      ({ frontier with ready } : Frontier graph.size).counter other =
        graph.degreeWithout gone other := hfits.counter other
  refine ⟨fun other => ?_, ?_, fun other => ?_, fun other hother => ?_⟩
  · rw [counter_release vertex hnodup, hdegree, hcounter]
    simp
  · exact pairwise_ready_release vertex _ (List.pairwise_cons.mp hascending).2
  · have hrest : other ∈ ready ↔ other ≠ vertex ∧ other ∉ gone ∧
        graph.degreeWithout gone other = 0 := by
      rw [← hfits.mem_ready, hready, List.mem_cons]
      have hnot : vertex ∉ ready := (List.nodup_cons.mp (hascending.imp Fin.ne_of_lt)).1
      grind
    rw [mem_ready_release_iff vertex hnodup, hrest, hdegree, hcounter]
    simp only [List.mem_finRange, true_and, List.mem_cons, not_or]
    by_cases hedge : graph.edge vertex other = true
    · have hpresent : other ≠ vertex ∧ other ∉ gone :=
        ⟨fun heq => hback (heq ▸ hzero) hedge, fun hgone => hback (hfits.gone other hgone) hedge⟩
      have hpositive : graph.degreeWithout gone other ≠ 0 := fun hdone => hback hdone hedge
      simp [hedge, hpresent, hpositive]
    · simp [hedge, and_assoc]
  · have hdone : graph.degreeWithout gone other = 0 := by
      rcases List.mem_cons.mp hother with rfl | hgone
      · exact hzero
      · exact hfits.gone other hgone
    rw [hdegree, if_neg (hback hdone), hdone]

/-- A vertex can be taken away next: it is still there, and no edge leads to it from a vertex that
is. -/
structure Ready (graph : Digraph) (gone : List (Fin graph.size)) (vertex : Fin graph.size) :
    Prop where
  present : vertex ∉ gone
  free : ∀ other, graph.edge other vertex = true → other ∈ gone

/-- Vertices are in an order in which they can be taken away, and each is the first that can. The
order determines itself, step by step. -/
def Drained (graph : Digraph) : List (Fin graph.size) → List (Fin graph.size) → Prop
  | _, [] => True
  | gone, vertex :: order =>
    graph.Ready gone vertex ∧ (∀ other, graph.Ready gone other → vertex ≤ other) ∧
      graph.Drained (vertex :: gone) order

/-- The ready vertices of a frontier that fits are those that can be taken away. -/
theorem Frontier.Fits.mem_ready_iff {frontier : Frontier graph.size} {gone : List (Fin graph.size)}
    (hfits : frontier.Fits gone) {vertex : Fin graph.size} :
    vertex ∈ frontier.ready ↔ graph.Ready gone vertex := by
  rw [hfits.mem_ready, degreeWithout_eq_zero_iff]
  exact ⟨fun ⟨hpresent, hfree⟩ => ⟨hpresent, hfree⟩, fun hready => ⟨hready.present, hready.free⟩⟩

/-- However many steps there are, vertices are taken away in the order in which they can be, the
first one each time. The induction is over the steps. -/
theorem drained_drain (steps : Nat) {frontier : Frontier graph.size} {gone : List (Fin graph.size)}
    (hfits : frontier.Fits gone) : graph.Drained gone (graph.drain steps frontier).1 := by
  induction steps generalizing frontier gone with
  | zero => trivial
  | succ steps ih =>
    rw [drain]
    split
    case h_1 => trivial
    case h_2 vertex ready hready =>
      have hfirst : graph.Ready gone vertex :=
        hfits.mem_ready_iff.mp (hready ▸ List.mem_cons_self)
      refine ⟨hfirst, fun other hother => ?_, ih (hfits.release hready)⟩
      have hmem := hready ▸ hfits.mem_ready_iff.mpr hother
      rcases List.mem_cons.mp hmem with rfl | hlater
      · exact Fin.le_refl other
      · exact Fin.le_of_lt ((List.pairwise_cons.mp (hready ▸ hfits.ascending)).1 other hlater)

namespace Drained

variable {gone order : List (Fin graph.size)}

theorem not_mem_gone (hdrained : graph.Drained gone order) {vertex : Fin graph.size}
    (hvertex : vertex ∈ order) : vertex ∉ gone := by
  induction order generalizing gone with
  | nil => cases hvertex
  | cons first rest ih =>
    obtain ⟨hfirst, -, hrest⟩ := hdrained
    rcases List.mem_cons.mp hvertex with rfl | hlater
    · exact hfirst.present
    · exact fun hgone => ih hrest hlater (List.mem_cons_of_mem first hgone)

theorem nodup (hdrained : graph.Drained gone order) : order.Nodup := by
  induction order generalizing gone with
  | nil => exact .nil
  | cons first rest ih =>
    obtain ⟨-, -, hrest⟩ := hdrained
    refine List.nodup_cons.mpr ⟨fun hlater => ?_, ih hrest⟩
    exact hrest.not_mem_gone hlater List.mem_cons_self

/-- Where an edge leads from a vertex that is still there to another, the other has its turn
later. -/
theorem idxOf_lt_of_edge (hdrained : graph.Drained gone order) {first second : Fin graph.size}
    (hfirst : first ∉ gone) (hedge : graph.edge first second = true) (hsecond : second ∈ order) :
    order.idxOf first < order.idxOf second := by
  induction order generalizing gone with
  | nil => cases hsecond
  | cons vertex rest ih =>
    obtain ⟨hvertex, -, hrest⟩ := hdrained
    have hne : vertex ≠ second := by
      rintro rfl
      exact hfirst (hvertex.free first hedge)
    rw [List.idxOf_cons_ne rest hne]
    by_cases heq : vertex = first
    · rw [heq, List.idxOf_cons_self]
      exact Nat.zero_lt_succ _
    · rw [List.idxOf_cons_ne rest heq]
      have hlater := (List.mem_cons.mp hsecond).resolve_left hne.symm
      exact Nat.succ_lt_succ (ih hrest (by simp [Ne.symm heq, hfirst]) hlater)

end Drained

/-- A chain of edges leads from a vertex to another. -/
def Leads (graph : Digraph) : Fin graph.size → Fin graph.size → Prop :=
  Relation.TransGen fun first second => graph.edge first second = true

/-- An order is topological if it has every vertex once, each behind all vertices from which a chain
of edges leads to it. -/
structure Topological (graph : Digraph) (order : List (Fin graph.size)) : Prop where
  perm : order.Perm (List.finRange graph.size)
  forward : ∀ {first second}, graph.Leads first second → order.idxOf first < order.idxOf second

/-- Where a chain of edges leads to a vertex that has its turn, the vertex that it starts from has
had its own. The induction is along the chain. -/
theorem Drained.idxOf_lt_of_leads {order : List (Fin graph.size)} (hdrained : graph.Drained [] order)
    {first second : Fin graph.size} (hleads : graph.Leads first second) (hsecond : second ∈ order) :
    order.idxOf first < order.idxOf second := by
  induction hleads with
  | single hedge => exact hdrained.idxOf_lt_of_edge List.not_mem_nil hedge hsecond
  | tail _ hedge ih =>
    have hlast := hdrained.idxOf_lt_of_edge List.not_mem_nil hedge hsecond
    have hmiddle := List.idxOf_lt_length_iff.mp (hlast.trans (List.idxOf_lt_length_of_mem hsecond))
    exact (ih hmiddle).trans hlast

/-- A sort succeeds with an order in which vertices were taken away until none was left. -/
theorem drained_of_sort {order : List (Fin graph.size)} (hsort : graph.sort = .ok order) :
    graph.Drained [] order ∧ graph.size ≤ order.length := by
  simp only [sort] at hsort
  split at hsort
  case isTrue => cases hsort
  case isFalse hlength =>
    obtain rfl := Except.ok.inj hsort
    exact ⟨drained_drain graph.size fits_frontier, Nat.le_of_not_lt hlength⟩

/-- A sort that succeeds puts every vertex behind all from which a chain of edges leads to it. -/
theorem topological_of_sort {order : List (Fin graph.size)} (hsort : graph.sort = .ok order) :
    graph.Topological order := by
  obtain ⟨hdrained, hlength⟩ := drained_of_sort hsort
  have hperm : order.Perm (List.finRange graph.size) := by
    have hsub := List.subperm_of_subset hdrained.nodup fun vertex _ => List.mem_finRange vertex
    exact hsub.perm_of_length_le (by rwa [List.length_finRange])
  exact ⟨hperm, fun hleads =>
    hdrained.idxOf_lt_of_leads hleads (hperm.mem_iff.mpr (List.mem_finRange _))⟩

end EntityWorld.Digraph
