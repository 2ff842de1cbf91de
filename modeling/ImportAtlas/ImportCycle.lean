import ImportAtlas.ImportGraph

/-!
Groups of modules that import each other, directly or through others.

They are the strongly connected components of the graph with numbered nodes, as far as an edge leads
within them. Tarjan's depth-first search finds them: what it has visited and not yet put into a
component lies on a stack, and a node there has the number of those that lie below it. A visit gives
back the lowest number that an edge leads to from what it leaves on the stack. If this is not below
the number of the node itself, then the node and all above it are a component.
-/

namespace ImportAtlas

/-- A search for components that is under way. -/
structure ComponentSearch where
  /-- the nodes that are visited and in no component, the last one first -/
  stack : List Nat := []
  components : List (List Nat) := []
  deriving DecidableEq, Repr

namespace ComponentSearch

/-- The number of a node that is on the stack. -/
def number? : (stack : List Nat) → Nat → Option Nat
  | [], _ => none
  | top :: below, v => if top = v then some below.length else number? below v

def isDone (s : ComponentSearch) (v : Nat) : Bool := s.components.any (·.contains v)

def enter (s : ComponentSearch) (v : Nat) : ComponentSearch := { s with stack := v :: s.stack }

/-- The node of a number and all above it become a component, unless they lead to a lower number. -/
def leave (s : ComponentSearch) (number low : Nat) : ComponentSearch :=
  if low < number then s
  else
    let size := s.stack.length - number
    ⟨s.stack.drop size, s.stack.take size :: s.components⟩

/-- An edge to `v`, with the lowest number so far: a new node is visited first. -/
def follow (visit : Nat → ComponentSearch → Nat × ComponentSearch) (found : Nat × ComponentSearch)
    (v : Nat) : Nat × ComponentSearch :=
  if found.2.isDone v then found
  else
    match number? found.2.stack v with
    | some number => (min found.1 number, found.2)
    | none =>
      let inner := visit v found.2
      (min found.1 inner.1, inner.2)

/-- The lowest number that is led to from a node, and the search when all its edges are followed.
The nodes that are visited on the way to a node are all different, so there are enough rounds if
there is one for each node. -/
def visit (next : Nat → List Nat) :
    (rounds : Nat) → Nat → ComponentSearch → Nat × ComponentSearch
  | 0, _, s => (s.stack.length, s)
  | rounds + 1, v, s =>
    let found := (next v).foldl (follow (visit next rounds)) (s.stack.length, s.enter v)
    (found.1, found.2.leave s.stack.length found.1)

/-- The search from each node below `n` that is not visited before. -/
def run (next : Nat → List Nat) (n : Nat) : ComponentSearch :=
  ((List.range n).foldl (follow (visit next n)) (0, {})).2

end ComponentSearch

namespace IndexedGraph

variable (g : IndexedGraph)

def successors (v : Nat) : List Nat := (g.edges.filter (·.1 = v)).map (·.2)

def components : List (List Nat) := (ComponentSearch.run g.successors g.nodes.length).components

/-- A component is a cycle if it has several nodes, or one with an edge to itself. -/
def isCycle : List Nat → Bool
  | [] => false
  | [v] => g.edges.contains (v, v)
  | _ => true

def names (c : List Nat) : List String := c.filterMap (g.nodes[·]?)

end IndexedGraph

/-- Modules that import each other, in ascending order. -/
structure ImportCycle where
  modules : List String
  deriving DecidableEq, Repr

def ImportCycle.text (c : ImportCycle) : String := ", ".intercalate c.modules

namespace ImportGraph

variable (g : ImportGraph)

/-- The cycles of the graph, each in ascending order, as the search finds them. -/
def foundCycles : List ImportCycle :=
  let graph := g.moduleGraph
  (graph.components.filter graph.isCycle).map fun c => ⟨(graph.names c).mergeSort⟩

/-- The cycles of the graph in ascending order. -/
def cycles : List ImportCycle := g.foundCycles.mergeSort fun c d => !(d.modules < c.modules)

end ImportGraph

end ImportAtlas
