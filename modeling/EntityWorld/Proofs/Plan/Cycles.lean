import EntityWorld.Proofs.Plan.Dependencies
import EntityWorld.Proofs.Plan.Least
import Mathlib.Data.Fintype.EquivFin

namespace EntityWorld

namespace Digraph

variable {graph : Digraph} {gone order blocked : List (Fin graph.size)}

/-- A vertex lies on a cycle, or a chain of edges leads to it from a vertex that does. Such a vertex
can never be taken away. -/
def Blocked (graph : Digraph) (vertex : Fin graph.size) : Prop :=
  graph.Leads vertex vertex ∨ ∃ start, graph.Leads start start ∧ graph.Leads start vertex

/-- Whoever is on a cycle is also behind it, so one case is enough for both. -/
theorem blocked_iff_exists {vertex : Fin graph.size} :
    graph.Blocked vertex ↔ ∃ start, graph.Leads start start ∧ graph.Leads start vertex :=
  ⟨fun hblocked => hblocked.elim (fun hcycle => ⟨vertex, hcycle, hcycle⟩) id, .inr⟩

/-- Whoever stands behind a vertex that is blocked is blocked too, with the same cycle before it. -/
theorem Blocked.of_leads {first second : Fin graph.size} (hfirst : graph.Blocked first)
    (hleads : graph.Leads first second) : graph.Blocked second := by
  obtain ⟨start, hcycle, hstart⟩ := blocked_iff_exists.mp hfirst
  exact .inr ⟨start, hcycle, hstart.trans hleads⟩

/-- Away from cycles no chain of edges can be followed backwards for ever: "leads to" is a strict
order there, and there are finitely many vertices. -/
theorem wellFounded_leads (graph : Digraph) :
    WellFounded fun first second => graph.Leads first second ∧ ¬graph.Blocked second :=
  @Finite.wellFounded_of_trans_of_irrefl _ _ _
    ⟨fun _ _ _ hfirst hsecond => ⟨hfirst.1.trans hsecond.1, hsecond.2⟩⟩
    ⟨fun _ hself => hself.2 (.inl hself.1)⟩

/-- What holds of a vertex as soon as it holds of all from which an edge leads to it holds of
every vertex that is not blocked. Away from cycles this is induction against the direction of the
edges. -/
theorem induction_of_not_blocked {P : Fin graph.size → Prop}
    (hstep : ∀ vertex, (∀ first, graph.edge first vertex = true → P first) → P vertex)
    {vertex : Fin graph.size} (hvertex : ¬graph.Blocked vertex) : P vertex := by
  induction vertex using graph.wellFounded_leads.induction with
  | _ vertex ih =>
    refine hstep vertex fun first hedge => ih first ⟨.single hedge, hvertex⟩ fun hfirst => ?_
    exact hvertex (hfirst.of_leads (.single hedge))

/-- When no vertex can be taken away any more, all that are left are blocked. Whoever is left waits
for another that is left too. -/
theorem blocked_of_stuck (hstuck : ∀ vertex, ¬graph.Ready gone vertex) {vertex : Fin graph.size}
    (hleft : vertex ∉ gone) : graph.Blocked vertex := by
  by_contra hnot
  refine hleft (induction_of_not_blocked (fun later hfree => ?_) hnot)
  exact by_contra fun hpresent => hstuck later ⟨hpresent, hfree⟩

/-- A vertex that has its turn is not blocked: the cycle would have to be over before it begins. -/
theorem Drained.not_blocked (hdrained : graph.Drained [] order) {vertex : Fin graph.size}
    (hvertex : vertex ∈ order) : ¬graph.Blocked vertex := by
  intro hblocked
  obtain ⟨start, hcycle, hleads⟩ := blocked_iff_exists.mp hblocked
  have hlt := hdrained.idxOf_lt_of_leads hleads hvertex
  have hstart := List.idxOf_lt_length_iff.mp (hlt.trans (List.idxOf_lt_length_of_mem hvertex))
  exact Nat.lt_irrefl _ (hdrained.idxOf_lt_of_leads hcycle hstart)

/-- When no vertex can be taken away any more, those with an edge from a vertex that is left are the
blocked ones. -/
theorem degreeWithout_pos_iff (hdrained : graph.Drained [] order)
    (hstuck : ∀ vertex, ¬graph.Ready order.reverse vertex) {vertex : Fin graph.size} :
    0 < graph.degreeWithout order.reverse vertex ↔ graph.Blocked vertex := by
  rw [Nat.pos_iff_ne_zero, Ne, degreeWithout_eq_zero_iff]
  constructor
  · intro hwaits
    obtain ⟨first, hedge, hleft⟩ :
        ∃ first, graph.edge first vertex = true ∧ first ∉ order.reverse := by
      simpa using hwaits
    exact (blocked_of_stuck hstuck hleft).of_leads (.single hedge)
  · intro hblocked hfree
    have hleft : vertex ∉ order.reverse := fun hmem =>
      hdrained.not_blocked (List.mem_reverse.mp hmem) hblocked
    exact hstuck vertex ⟨hleft, hfree⟩

/-- A sort that fails reports the blocked vertices in ascending order, those on a cycle together
with those that are only behind one. -/
theorem mem_iff_of_sort (hsort : graph.sort = .error blocked) :
    blocked.Pairwise (· < ·) ∧ ∀ vertex, vertex ∈ blocked ↔ graph.Blocked vertex := by
  obtain ⟨order, hdrained, -, hstuck, rfl⟩ := stuck_of_sort hsort
  refine ⟨(List.pairwise_lt_finRange graph.size).filter _, fun vertex => ?_⟩
  simp only [List.mem_filter, List.mem_finRange, true_and, decide_eq_true_eq]
  exact degreeWithout_pos_iff hdrained hstuck

/-- Sorting fails exactly if the graph has a cycle. What it then reports may be larger than the
cycles. -/
theorem exists_sort_eq_error_iff :
    (∃ blocked, graph.sort = .error blocked) ↔ ∃ vertex, graph.Leads vertex vertex := by
  constructor
  · rintro ⟨blocked, hsort⟩
    obtain ⟨order, -, hshort, hstuck, -⟩ := stuck_of_sort hsort
    obtain ⟨vertex, hleft⟩ := exists_notMem_of_length_lt hshort
    obtain ⟨start, hcycle, -⟩ :=
      blocked_iff_exists.mp (blocked_of_stuck hstuck (mt List.mem_reverse.mp hleft))
    exact ⟨start, hcycle⟩
  · rintro ⟨vertex, hcycle⟩
    cases hsort : graph.sort with
    | ok order => exact absurd ((topological_of_sort hsort).forward hcycle) (Nat.lt_irrefl _)
    | error blocked => exact ⟨blocked, rfl⟩

/-- The second vertex lies on a cycle of its own, and the third only behind it. -/
example :
    ({ size := 3, edge := fun i j => i = 1 && j = 1 || i = 1 && j = 2 } : Digraph).sort =
      .error [1, 2] := by
  rfl

end Digraph

namespace Plan

variable {S : Schema} {σ : Type} {systems : List (System S σ)}

/-- In the graph of systems the blocked ones depend on themselves, or on some that do. -/
theorem blocked_graph_iff {i : Fin systems.length} :
    (graph systems).Blocked i ↔
      Before systems i i ∨ ∃ j, Before systems j j ∧ Before systems j i :=
  or_congr (leads_graph_iff systems) (exists_congr fun _ =>
    and_congr (leads_graph_iff systems) (leads_graph_iff systems))

/-- Systems have no order exactly if their graph cannot be sorted, and the error names the vertices
that are left. -/
theorem systemOrder_eq_error_iff {error : Error} :
    systemOrder systems = .error error ↔
      ∃ blocked, (graph systems).sort = .error blocked ∧
        error = .dependencyCycle (blocked.map fun (i : Fin systems.length) =>
          (systems.get i).id.name) := by
  rw [systemOrder]
  cases (graph systems).sort with
  | ok order => simp [Except.mapError]
  | error blocked => simp [Except.mapError, eq_comm]

/-- Systems have no order exactly if some of them depend on themselves, directly or through others
among them. The error names, in the order of the systems and each once, those that depend on
themselves and those that depend, directly or through others, on one that does. -/
theorem systemOrder_fails_iff_cycle (systems : List (System S σ)) :
    ((∃ error, systemOrder systems = .error error) ↔ ∃ i, Before systems i i) ∧
      ∀ error, systemOrder systems = .error error →
        ∃ blocked : List (Fin systems.length),
          error = .dependencyCycle (blocked.map fun i => (systems.get i).id.name) ∧
          blocked.Pairwise (· < ·) ∧
          ∀ i, i ∈ blocked ↔
            Before systems i i ∨ ∃ j, Before systems j j ∧ Before systems j i := by
  refine ⟨?_, fun error herror => ?_⟩
  · have hcycle : (∃ i, (graph systems).Leads i i) ↔ ∃ i, Before systems i i :=
      exists_congr fun _ => leads_graph_iff systems
    rw [← hcycle, ← Digraph.exists_sort_eq_error_iff]
    simp only [systemOrder_eq_error_iff]
    exact ⟨fun ⟨_, blocked, hsort, _⟩ => ⟨blocked, hsort⟩,
      fun ⟨blocked, hsort⟩ => ⟨_, blocked, hsort, rfl⟩⟩
  · obtain ⟨blocked, hsort, hnames⟩ := systemOrder_eq_error_iff.mp herror
    obtain ⟨hascending, hmem⟩ := Digraph.mem_iff_of_sort hsort
    exact ⟨blocked, hnames, hascending, fun i => (hmem i).trans blocked_graph_iff⟩

end Plan

end EntityWorld
