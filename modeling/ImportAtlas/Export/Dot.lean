import ImportAtlas.Files.FileTree
import ImportAtlas.ImportGraph

/-!
Import graphs in the language of Graphviz, and their drawing.

A line for each node comes first, with its number and its name as a label, then a line for each
edge. The package itself is green, all other nodes are blue.

To draw a graph, this is written to a file, and the program that lays it out is told to put a
document beside it. The file stays where it is even if that program is missing or fails.
-/

namespace ImportAtlas.Export

def labelChar (c : Char) : List Char :=
  if c = '"' then ['\\', '"']
  else if c = '\\' then ['\\', '\\']
  else if c = '\n' then ['\\', 'l']
  else [c]

def label (name : String) : List Char := name.toList.flatMap labelChar

def nodeLine (rootName : String) (index : Nat) (name : String) : List Char :=
  let color := if name = rootName then "lightgreen" else "lightblue"
  "    ".toList ++ Nat.toDigits 10 index ++ " [ label = \"".toList ++ label name ++
    "\" style = filled, fillcolor = ".toList ++ color.toList ++ "]\n".toList

def edgeLine (edge : Nat × Nat) : List Char :=
  "    ".toList ++ Nat.toDigits 10 edge.1 ++ " -> ".toList ++ Nat.toDigits 10 edge.2 ++
    " [ ]\n".toList

/-- The lines of all nodes, which are numbered from `first` on. -/
def nodeLines (rootName : String) : (first : Nat) → List String → List Char
  | _, [] => []
  | n, name :: names => nodeLine rootName n name ++ nodeLines rootName (n + 1) names

/-- The graph between its braces. -/
def digraph (rootName : String) (g : IndexedGraph) : List Char :=
  "digraph \x7b\n".toList ++ nodeLines rootName 0 g.nodes ++ g.edges.flatMap edgeLine ++
    "\x7d\n".toList

end ImportAtlas.Export

namespace ImportAtlas.ImportGraph

open Export

def dotHeader (g : ImportGraph) : List Char :=
  "// The ".toList ++ g.rootName.toList ++ " package\n".toList

/-- The drawn part of the graph in the language of Graphviz. -/
def dot (g : ImportGraph) : String :=
  String.ofList (g.dotHeader ++ digraph g.rootName g.drawnGraph)

end ImportAtlas.ImportGraph

namespace ImportAtlas

/-- What becomes of a call of the layout program. -/
inductive LayoutProgram where
  | missing
  /-- it ends with a status and changes nothing -/
  | exits (status : Nat)
  /-- it ends well and writes its arguments, a line for each, to the document -/
  | writesArguments
  deriving DecidableEq, Repr

inductive DrawingError where
  | file (error : FileError)
  | notRun
  | failed (status : Nat)
  deriving DecidableEq, Repr

def DrawingError.message : DrawingError → String
  | file e => s!"I/O error: {e.message}"
  | notRun => s!"Graphviz rendering failed: could not run 'dot': {FileError.missing.message}"
  | failed status => s!"Graphviz rendering failed: 'dot' exited with exit status: {status}"

/-- The wording of the error and of what caused it. -/
def DrawingError.chain : DrawingError → List String
  | file e => [(file e).message, e.message]
  | e => [e.message]

def documentPath (path : String) : String := path ++ ".pdf"

namespace FileTree

/-- The tree after the layout program was called for a file. -/
def layOut (t : FileTree) (here : Location) (program : LayoutProgram) (path : String) :
    FileTree × Except DrawingError String :=
  let document := documentPath path
  match program with
  | .missing => (t, .error .notRun)
  | .exits 0 => (t, .ok document)
  | .exits status => (t, .error (.failed status))
  | .writesArguments =>
    let arguments := s!"-Tpdf\n-o\n{document}\n{path}\n"
    (((t.writeText here (.ofText document) arguments).toOption.getD t), .ok document)

/-- The tree after the graph was written to a file and laid out, and the path of the document. -/
def draw (t : FileTree) (here : Location) (program : LayoutProgram) (g : ImportGraph)
    (path : String) : FileTree × Except DrawingError String :=
  match t.writeText here (.ofText path) g.dot with
  | .error e => (t, .error (.file e))
  | .ok t => t.layOut here program path

end FileTree

end ImportAtlas
