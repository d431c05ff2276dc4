import EntityWorld.Proofs.Plan.Digraph

namespace EntityWorld.Digraph

variable {graph : Digraph}

/-- A frontier together with the edges that are still to be processed. The sort itself keeps no such
record, and its counters are compared with this one. -/
structure Ledger (n : Nat) where
  frontier : Frontier n
  edge : Fin n → Fin n → Bool

namespace Ledger

variable {n : Nat}

/-- How many edges that lead to a vertex are still to be processed. -/
def incoming (ledger : Ledger n) (vertex : Fin n) : Nat :=
  (List.finRange n).countP fun other => ledger.edge other vertex

/-- Strikes out an edge and takes it off the counter of the vertex it leads to, which becomes ready
with the last of them. -/
def process (ledger : Ledger n) (first second : Fin n) : Ledger n :=
  let count := ledger.frontier.counter second - 1
  { frontier :=
      { waiting := ledger.frontier.waiting.set second count second.isLt
        ready :=
          if count = 0 then insertAscending second ledger.frontier.ready
          else ledger.frontier.ready }
    edge := fun i j => ledger.edge i j && !(i = first && j = second) }

/-- Processes an edge only if the counter to be lowered is that of the edges still to be processed,
and not zero. So a counter that would go below zero stops everything. -/
def process? (ledger : Ledger n) (first second : Fin n) : Option (Ledger n) :=
  let count := ledger.frontier.counter second
  if count = ledger.incoming second ∧ 0 < count then some (ledger.process first second) else none

/-- Processes the edges from `vertex` to some vertices. -/
def release? (vertex : Fin n) : List (Fin n) → Ledger n → Option (Ledger n)
  | [], ledger => some ledger
  | other :: others, ledger =>
    if ledger.edge vertex other then (ledger.process? vertex other).bind (release? vertex others)
    else release? vertex others ledger

/-- Takes away ready vertices, always the first one, at most `steps` times. -/
def drain? : Nat → Ledger n → Option (List (Fin n) × Vector Nat n)
  | 0, ledger => some ([], ledger.frontier.waiting)
  | steps + 1, ledger =>
    match ledger.frontier.ready with
    | [] => some ([], ledger.frontier.waiting)
    | vertex :: ready => do
      let next ← release? vertex (List.finRange n)
        { ledger with frontier := { ledger.frontier with ready } }
      let (order, waiting) ← drain? steps next
      return (vertex :: order, waiting)

end Ledger

/-- The sort with its counters checked each time that one of them is lowered. -/
def sort? (graph : Digraph) : Option (Except (List (Fin graph.size)) (List (Fin graph.size))) :=
  (Ledger.drain? graph.size { frontier := graph.frontier, edge := graph.edge }).map fun drained =>
    if drained.1.length < graph.size then
      .error ((List.finRange graph.size).filter fun vertex => 0 < drained.2.get vertex)
    else
      .ok drained.1

namespace Ledger

/-- An edge that is still to be processed is one of those that its counter counts, so the counter is
not zero. -/
theorem process?_eq {n : Nat} {ledger : Ledger n} {first second : Fin n}
    (hedge : ledger.edge first second = true)
    (hcounter : ledger.frontier.counter second = ledger.incoming second) :
    ledger.process? first second = some (ledger.process first second) := by
  have hpositive : 0 < ledger.incoming second :=
    List.countP_pos_iff.mpr ⟨first, List.mem_finRange first, hedge⟩
  exact if_pos ⟨hcounter, hcounter ▸ hpositive⟩

/-- Processing an edge touches the counter of the vertex that it leads to, and no other. -/
theorem counter_process {n : Nat} (ledger : Ledger n) {first second other : Fin n}
    (hne : second ≠ other) :
    (ledger.process first second).frontier.counter other = ledger.frontier.counter other := by
  rw [process, Frontier.counter_set, if_neg hne]

theorem edge_process {n : Nat} (ledger : Ledger n) {first second other : Fin n}
    (hne : second ≠ other) (vertex : Fin n) :
    (ledger.process first second).edge vertex other = ledger.edge vertex other := by
  simp [process, hne.symm]

theorem incoming_process {n : Nat} (ledger : Ledger n) {first second other : Fin n}
    (hne : second ≠ other) :
    (ledger.process first second).incoming other = ledger.incoming other := by
  simp only [incoming, ledger.edge_process hne]

/-- Where the counters are those of the edges still to be processed, those from a vertex can be. The
induction is over the vertices that they might lead to, each of which is looked at once. -/
theorem release?_eq (vertex : Fin graph.size) {others : List (Fin graph.size)}
    (hnodup : others.Nodup) {ledger : Ledger graph.size}
    (hedge : ∀ other ∈ others, ledger.edge vertex other = graph.edge vertex other)
    (hcounter : ∀ other ∈ others, ledger.frontier.counter other = ledger.incoming other) :
    release? vertex others ledger = some
      { frontier := graph.release vertex others ledger.frontier
        edge := fun i j => ledger.edge i j && !(i = vertex && j ∈ others) } := by
  induction others generalizing ledger with
  | nil => simp [release?, release]
  | cons first others ih =>
    obtain ⟨hfirst, hrest⟩ := List.nodup_cons.mp hnodup
    obtain ⟨hfirstEdge, hrestEdge⟩ := List.forall_mem_cons.mp hedge
    obtain ⟨hfirstCounter, hrestCounter⟩ := List.forall_mem_cons.mp hcounter
    -- Only edges to `first` are struck out now, so nothing changes for the vertices behind it.
    have hne {other : Fin graph.size} (hother : other ∈ others) : first ≠ other := by
      rintro rfl
      exact hfirst hother
    by_cases hstands : graph.edge vertex first = true
    · have hprocessed := process?_eq (hfirstEdge.trans hstands) hfirstCounter
      rw [release?, if_pos (hfirstEdge.trans hstands), hprocessed, Option.bind_some,
        release_cons_of_edge hstands, ih hrest]
      · refine congrArg some (congrArg (Ledger.mk _) (funext fun i => funext fun j => ?_))
        simp only [process, List.mem_cons, Bool.decide_or]
        grind
      · intro other hother
        rw [ledger.edge_process (hne hother), hrestEdge other hother]
      · intro other hother
        rw [ledger.counter_process (hne hother), ledger.incoming_process (hne hother),
          hrestCounter other hother]
    · have hstruck : ¬ledger.edge vertex first = true := by rwa [hfirstEdge]
      rw [release?, if_neg hstruck, release_cons_of_no_edge hstands,
        ih hrest hrestEdge hrestCounter]
      refine congrArg some (congrArg (Ledger.mk _) (funext fun i => funext fun j => ?_))
      simp only [List.mem_cons, Bool.decide_or]
      grind

/-- The frontier fits the vertices taken away, and just their edges have been processed. This is the
invariant of the sort with its record. -/
structure Fits (ledger : Ledger graph.size) (gone : List (Fin graph.size)) : Prop where
  frontier : ledger.frontier.Fits gone
  edge : ∀ i j, ledger.edge i j = (graph.edge i j && i ∉ gone)

variable {ledger : Ledger graph.size} {gone : List (Fin graph.size)}

/-- Under the invariant each counter is that of the edges still to be processed: those from vertices
that are still there. -/
theorem Fits.counter_eq (hfits : ledger.Fits gone) (vertex : Fin graph.size) :
    ledger.frontier.counter vertex = ledger.incoming vertex := by
  rw [hfits.frontier.counter, degreeWithout, incoming]
  simp only [hfits.edge]

/-- A ready vertex can be taken away with all checks, and the invariant holds again. -/
theorem Fits.exists_release? (hfits : ledger.Fits gone) {vertex : Fin graph.size}
    {ready : List (Fin graph.size)} (hready : ledger.frontier.ready = vertex :: ready) :
    ∃ next : Ledger graph.size, next.Fits (vertex :: gone) ∧
      next.frontier =
        graph.release vertex (List.finRange graph.size) { ledger.frontier with ready } ∧
      release? vertex (List.finRange graph.size)
        { ledger with frontier := { ledger.frontier with ready } } = some next := by
  have hpresent : vertex ∉ gone :=
    ((hfits.frontier.mem_ready vertex).mp (hready ▸ List.mem_cons_self)).1
  let taken : Ledger graph.size := { ledger with frontier := { ledger.frontier with ready } }
  have hedge (other : Fin graph.size) : taken.edge vertex other = graph.edge vertex other := by
    simp [taken, hfits.edge, hpresent]
  have hcounter (other : Fin graph.size) : taken.frontier.counter other = taken.incoming other :=
    hfits.counter_eq other
  have hreleased := release?_eq vertex (List.nodup_finRange graph.size) (fun other _ => hedge other)
    fun other _ => hcounter other
  refine ⟨_, ⟨hfits.frontier.release hready, fun i j => ?_⟩, rfl, hreleased⟩
  simp only [taken, hfits.edge, List.mem_finRange, List.mem_cons]
  grind

/-- However many steps there are, no check stops them. The induction is over the steps, and the
invariant carries it. -/
theorem Fits.drain?_eq (hfits : ledger.Fits gone) (steps : Nat) :
    ledger.drain? steps = some (graph.drain steps ledger.frontier) := by
  induction steps generalizing ledger gone with
  | zero => rfl
  | succ steps ih =>
    rw [drain?, drain]
    cases hready : ledger.frontier.ready with
    | nil => rfl
    | cons vertex ready =>
      obtain ⟨next, hnext, hfrontier, hreleased⟩ := hfits.exists_release? hready
      simp only [hreleased, ih hnext, hfrontier, Option.bind_eq_bind, Option.bind_some]
      rfl

end Ledger

/-- Each time that a sort lowers a counter, it is that of the edges still to be processed, and not
zero. So the sort with its counters checked never stops, and does what the sort does. -/
theorem sort?_eq (graph : Digraph) : graph.sort? = some graph.sort := by
  let ledger : Ledger graph.size := { frontier := graph.frontier, edge := graph.edge }
  have hfits : ledger.Fits [] := ⟨fits_frontier, fun i j => by simp [ledger]⟩
  rw [sort?, hfits.drain?_eq graph.size, Option.map_some]
  rfl

end EntityWorld.Digraph
