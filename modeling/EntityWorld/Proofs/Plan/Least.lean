import EntityWorld.Proofs.Plan.Counters
import Mathlib.Data.List.Lex

namespace EntityWorld.Digraph

variable {graph : Digraph} {gone order other : List (Fin graph.size)}

/-- Each vertex once, in an order in which every edge leads forward. A graph may have many such
orders, of which sorting finds the least. -/
structure Forward (graph : Digraph) (order : List (Fin graph.size)) : Prop where
  perm : order.Perm (List.finRange graph.size)
  edge : ∀ first second, graph.edge first second = true →
    order.idxOf first < order.idxOf second

/-- Vertices are in an order in which they can be taken away, without a choice of which comes
first. -/
def Feasible (graph : Digraph) : List (Fin graph.size) → List (Fin graph.size) → Prop
  | _, [] => True
  | gone, vertex :: order => graph.Ready gone vertex ∧ graph.Feasible (vertex :: gone) order

/-- Whether a vertex can be taken away depends on which vertices are gone, and not on their
order. -/
theorem Ready.congr {vertex : Fin graph.size} (hready : graph.Ready gone vertex)
    (hsame : ∀ found, found ∈ other ↔ found ∈ gone) : graph.Ready other vertex :=
  ⟨fun hmem => hready.present ((hsame vertex).mp hmem),
    fun found hedge => (hsame found).mpr (hready.free found hedge)⟩

namespace Forward

theorem nodup (hforward : graph.Forward order) : order.Nodup :=
  hforward.perm.nodup_iff.mpr (List.nodup_finRange graph.size)

theorem length_eq (hforward : graph.Forward order) : order.length = graph.size := by
  rw [hforward.perm.length_eq, List.length_finRange]

/-- When a vertex has its turn, all vertices with an edge to it have had theirs, so it can be taken
away. -/
theorem ready_of_append (hforward : graph.Forward order) {earlier later : List (Fin graph.size)}
    {vertex : Fin graph.size} (horder : order = earlier ++ vertex :: later) :
    graph.Ready earlier vertex := by
  have hnodup := hforward.nodup
  rw [horder, List.nodup_append] at hnodup
  have hpresent : vertex ∉ earlier := fun hmem =>
    hnodup.2.2 vertex hmem vertex List.mem_cons_self rfl
  refine ⟨hpresent, fun first hedge => ?_⟩
  have hlt := hforward.edge first vertex hedge
  rw [horder, List.idxOf_append_of_notMem hpresent, List.idxOf_cons_self] at hlt
  by_contra hmissing
  rw [List.idxOf_append_of_notMem hmissing] at hlt
  omega

/-- An order that all edges follow is one in which vertices can be taken away. -/
theorem feasible (hforward : graph.Forward order) : graph.Feasible [] order := by
  -- The vertices that are gone are listed last one first, so only their members are compared.
  have hrest (later : List (Fin graph.size)) : ∀ earlier gone : List (Fin graph.size),
      order = earlier ++ later → (∀ found, found ∈ gone ↔ found ∈ earlier) →
        graph.Feasible gone later := by
    induction later with
    | nil => exact fun _ _ _ _ => trivial
    | cons vertex later ih =>
      intro earlier gone horder hsame
      refine ⟨(hforward.ready_of_append horder).congr hsame,
        ih (earlier ++ [vertex]) (vertex :: gone) (by rw [horder, List.append_assoc]; rfl)
          fun found => ?_⟩
      rw [List.mem_cons, hsame, List.mem_append, List.mem_singleton, or_comm]
  exact hrest order [] [] rfl fun _ => Iff.rfl

/-- As long as a vertex is left, one can be taken away: the first of them in any order that the
edges follow. -/
theorem exists_ready (hforward : graph.Forward order) {vertex : Fin graph.size}
    (hvertex : vertex ∉ gone) : ∃ found, graph.Ready gone found := by
  -- A vertex that cannot be taken away yet waits for one that is earlier in the order.
  induction hindex : order.idxOf vertex using Nat.strong_induction_on generalizing vertex with
  | _ index ih =>
    by_cases hfree : ∀ first, graph.edge first vertex = true → first ∈ gone
    · exact ⟨vertex, hvertex, hfree⟩
    · obtain ⟨first, hedge, hfirst⟩ :
          ∃ first, graph.edge first vertex = true ∧ first ∉ gone := by
        simpa using hfree
      exact ih _ (hindex ▸ hforward.edge first vertex hedge) hfirst rfl

end Forward

/-- An order that takes the least vertex each time comes before all others in which vertices can be
taken away. At the first place where the two differ, the other takes one that could be taken here as
well. -/
theorem Drained.eq_or_lex_of_feasible (hdrained : graph.Drained gone order)
    (hother : graph.Feasible gone other) (hlength : order.length = other.length) :
    order = other ∨ List.Lex (· < ·) order other := by
  induction order generalizing gone other with
  | nil => exact .inl (List.length_eq_zero_iff.mp hlength.symm).symm
  | cons vertex order ih =>
    obtain ⟨-, hleast, hrest⟩ := hdrained
    cases other with
    | nil => cases hlength
    | cons found other =>
      obtain ⟨hready, hfound⟩ := hother
      rcases Fin.lt_or_eq_of_le (hleast found hready) with hlt | rfl
      · exact .inr (.rel hlt)
      · rcases ih hrest hfound (Nat.succ.inj hlength) with rfl | hlex
        · exact .inl rfl
        · exact .inr (.cons hlex)

/-- The counters that are left are those of a graph without the vertices taken away, and taking
vertices away only ends early when none is ready any more. -/
theorem exists_fits_drain (steps : Nat) {frontier : Frontier graph.size}
    (hfits : frontier.Fits gone) :
    ∃ last : Frontier graph.size, last.waiting = (graph.drain steps frontier).2 ∧
      last.Fits ((graph.drain steps frontier).1.reverse ++ gone) ∧
      ((graph.drain steps frontier).1.length = steps ∨ last.ready = []) := by
  induction steps generalizing frontier gone with
  | zero => exact ⟨frontier, rfl, hfits, .inl rfl⟩
  | succ steps ih =>
    rw [drain]
    split
    case h_1 hready => exact ⟨frontier, rfl, hfits, .inr hready⟩
    case h_2 vertex ready hready =>
      obtain ⟨last, hwaiting, hlast, hended⟩ := ih (hfits.release hready)
      simp only [List.length_cons, List.reverse_cons, List.append_assoc, List.singleton_append]
      exact ⟨last, hwaiting, hlast, hended.imp_left (congrArg Nat.succ)⟩

/-- A list that is shorter than the graph lacks one of the vertices, even if it has none of them
twice. -/
theorem exists_notMem_of_length_lt (hshort : order.length < graph.size) :
    ∃ vertex, vertex ∉ order := by
  by_contra hnone
  have hall (vertex : Fin graph.size) : vertex ∈ order :=
    by_contra fun hmissing => hnone ⟨vertex, hmissing⟩
  have hsub := List.subperm_of_subset (List.nodup_finRange graph.size) fun vertex _ => hall vertex
  have hle := hsub.length_le
  rw [List.length_finRange] at hle
  omega

/-- A sort that fails has taken vertices away until none could be taken any more, and reports those
to which an edge from a vertex that is left leads. -/
theorem stuck_of_sort {blocked : List (Fin graph.size)} (hsort : graph.sort = .error blocked) :
    ∃ order, graph.Drained [] order ∧ order.length < graph.size ∧
      (∀ vertex, ¬graph.Ready order.reverse vertex) ∧
      blocked = (List.finRange graph.size).filter fun vertex =>
        0 < graph.degreeWithout order.reverse vertex := by
  obtain ⟨last, hwaiting, hlast, hended⟩ := exists_fits_drain graph.size graph.fits_frontier
  simp only [sort] at hsort
  split at hsort
  case isFalse => cases hsort
  case isTrue hshort =>
    rw [List.append_nil] at hlast
    have hready := hended.resolve_left (Nat.ne_of_lt hshort)
    refine ⟨_, drained_drain graph.size graph.fits_frontier, hshort, fun vertex hvertex => ?_, ?_⟩
    · have hmem := hlast.mem_ready_iff.mpr hvertex
      rw [hready] at hmem
      cases hmem
    · rw [← Except.error.inj hsort]
      refine List.filter_congr fun vertex _ => ?_
      rw [← hlast.counter, Frontier.counter, hwaiting]
      rfl

/-- If there is an order that the edges follow, sorting finds one. As long as a vertex is left one
can be taken away, so the sort never comes to a halt. -/
theorem exists_sort_of_forward (hother : graph.Forward other) :
    ∃ order, graph.sort = .ok order := by
  cases hsort : graph.sort with
  | ok order => exact ⟨order, rfl⟩
  | error blocked =>
    obtain ⟨order, -, hshort, hstuck, -⟩ := stuck_of_sort hsort
    obtain ⟨vertex, hvertex⟩ := exists_notMem_of_length_lt hshort
    obtain ⟨found, hfound⟩ := hother.exists_ready (mt List.mem_reverse.mp hvertex)
    exact absurd hfound (hstuck found)

/-- What sorting finds is an order that all edges follow, with every vertex in it once. -/
theorem forward_of_sort (hsort : graph.sort = .ok order) : graph.Forward order :=
  have htopological := topological_of_sort hsort
  ⟨htopological.perm, fun _ _ hedge => htopological.forward (.single hedge)⟩

/-- What sorting finds comes before all other orders that the edges follow, by always taking the
least vertex that can be taken. -/
theorem eq_or_lex_of_sort (hsort : graph.sort = .ok order) (hother : graph.Forward other) :
    order = other ∨ List.Lex (· < ·) order other :=
  (drained_of_sort hsort).1.eq_or_lex_of_feasible hother.feasible
    ((forward_of_sort hsort).length_eq.trans hother.length_eq.symm)

/-- Sorting finds an order exactly if there is one that has each vertex once with every edge leading
forward, and of all these it finds the lexicographically least. Each time that it lowers a counter,
for any graph and also if it finds no order, the counter is that of the edges to the vertex that are
still to be processed, and not zero. -/
theorem sort_eq_least (graph : Digraph) :
    (∀ order, graph.sort = .ok order ↔
      graph.Forward order ∧
        ∀ other, graph.Forward other → order = other ∨ List.Lex (· < ·) order other) ∧
    graph.sort? = some graph.sort := by
  refine ⟨fun order => ⟨fun hsort => ?_, fun ⟨hforward, hleast⟩ => ?_⟩, graph.sort?_eq⟩
  · exact ⟨forward_of_sort hsort, fun _ hother => eq_or_lex_of_sort hsort hother⟩
  · obtain ⟨found, hsort⟩ := exists_sort_of_forward hforward
    rcases eq_or_lex_of_sort hsort hforward with rfl | hbefore
    · exact hsort
    · rcases hleast found (forward_of_sort hsort) with rfl | hafter
      · exact hsort
      · exact absurd hafter (asymm_of (List.Lex (· < ·)) hbefore)

/-- The first vertex has to wait for the last one, and the one between them goes first. -/
example :
    ({ size := 3, edge := fun i j => i = 2 && j = 0 } : Digraph).sort = .ok [1, 2, 0] := by
  rfl

end EntityWorld.Digraph
