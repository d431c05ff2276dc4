namespace EntityWorld

/-- A graph: whether an edge leads from a vertex to another. -/
structure Digraph where
  size : Nat
  edge : Fin size → Fin size → Bool

namespace Digraph

variable (graph : Digraph)

/-- How many edges lead to a vertex. -/
def degree (vertex : Fin graph.size) : Nat :=
  (List.finRange graph.size).countP fun other => graph.edge other vertex

/-- Adds a vertex to an ascending list in its place. -/
def insertAscending {n : Nat} (vertex : Fin n) : List (Fin n) → List (Fin n)
  | [] => [vertex]
  | first :: rest =>
    if vertex < first then vertex :: first :: rest
    else if vertex = first then first :: rest
    else first :: insertAscending vertex rest

/-- Vertices still there: the counters of all vertices, and in ascending order
    those that no edge leads to. -/
structure Frontier (n : Nat) where
  waiting : Vector Nat n
  ready : List (Fin n)

def frontier : Frontier graph.size where
  waiting := Vector.ofFn graph.degree
  ready := (List.finRange graph.size).filter fun vertex => graph.degree vertex = 0

/-- Takes away the edges from `vertex` to some vertices. Those that no edge
    leads to any more become ready. -/
def release (vertex : Fin graph.size) :
    List (Fin graph.size) → Frontier graph.size → Frontier graph.size
  | [], frontier => frontier
  | other :: others, frontier =>
    if graph.edge vertex other then
      let count := frontier.waiting[other] - 1
      release vertex others
        { waiting := frontier.waiting.set other count
          ready := if count = 0 then insertAscending other frontier.ready else frontier.ready }
    else
      release vertex others frontier

/-- Takes away ready vertices, always the first one, at most `steps` times.
    Gives them in their order, and the counters that are left. -/
def drain : Nat → Frontier graph.size → List (Fin graph.size) × Vector Nat graph.size
  | 0, frontier => ([], frontier.waiting)
  | steps + 1, frontier =>
    match frontier.ready with
    | [] => ([], frontier.waiting)
    | vertex :: ready =>
      let (order, waiting) :=
        drain steps (graph.release vertex (List.finRange graph.size) { frontier with ready })
      (vertex :: order, waiting)

/-- The vertices in an order that all edges follow, of those ready at the same
    time the first one first. Without such an order, the vertices to which an
    edge from a vertex on a cycle, or behind one, leads. Every vertex is taken
    away at most once, so as many steps as vertices suffice. -/
def sort : Except (List (Fin graph.size)) (List (Fin graph.size)) :=
  let (order, waiting) := graph.drain graph.size graph.frontier
  if order.length < graph.size then
    .error ((List.finRange graph.size).filter fun vertex => 0 < waiting[vertex])
  else
    .ok order

end Digraph

end EntityWorld
