import ImportAtlas.OrderedMap
import ImportAtlas.OrderedSet

/-!
Directed graphs with numbered nodes, and how they are put together.

Nodes have names and are numbered in the order in which they were first mentioned; edges are pairs
of numbers in the order in which they were first added. While a graph is put together, a table has
the number of each name that was mentioned, so that neither a node nor an edge is added twice.
-/

namespace ImportAtlas

structure IndexedGraph where
  nodes : List String := []
  edges : List (Nat × Nat) := []
  deriving DecidableEq, Repr, Inhabited

/-- What a graph is put together from: nodes, and edges from one node to another, by name. -/
inductive Mention where
  | node (name : String)
  | edge (source target : String)
  deriving DecidableEq, Repr

/-- A graph that is put together, with the numbers of its nodes by name. -/
structure GraphBuilder where
  graph : IndexedGraph := {}
  numbers : OrderedMap String Nat := .empty
  deriving DecidableEq, Inhabited

namespace GraphBuilder

/-- The number of a name; a new name gets the next one. -/
def node (b : GraphBuilder) (name : String) : Nat × GraphBuilder :=
  match b.numbers.find? name with
  | some number => (number, b)
  | none =>
    let number := b.graph.nodes.length
    (number, ⟨{ b.graph with nodes := b.graph.nodes ++ [name] }, b.numbers.insert name number⟩)

/-- The builder with an edge between the nodes of two names, which are added if they are missing. -/
def edge (b : GraphBuilder) (source target : String) : GraphBuilder :=
  let (i, b) := b.node source
  let (j, b) := b.node target
  if (i, j) ∈ b.graph.edges then b
  else { b with graph := { b.graph with edges := b.graph.edges ++ [(i, j)] } }

def mention (b : GraphBuilder) : Mention → GraphBuilder
  | .node name => (b.node name).2
  | .edge source target => b.edge source target

def ofMentions (ms : List Mention) : GraphBuilder := ms.foldl mention {}

end GraphBuilder

end ImportAtlas
