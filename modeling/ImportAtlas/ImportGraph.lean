import ImportAtlas.IndexedGraph
import ImportAtlas.ModuleFilter
import ImportAtlas.OrderedMap

/-!
The import graph of a package: which module imports which, by dotted names.

The graph keeps what its filter allows of the importers and, on its own, of what they import. Its
nodes are all the names in it. The part that is drawn is the package itself and what lies within
it, with an edge from each imported module to its importer.
-/

namespace ImportAtlas

/-- For each importer the modules that it imports. -/
abbrev ImportTable := OrderedMap String NameSet

namespace ImportTable

/-- The table with imports added to an importer, which may be new and import nothing. -/
def addImports (t : ImportTable) (importer : String) (imports : List String) : ImportTable :=
  t.alter importer fun old => (old.getD .empty).insertAll imports

end ImportTable

structure ImportGraph where
  /-- the name of the package -/
  rootName : String := ""
  /-- the filter that the graph was built with -/
  filter : ModuleFilter := .all
  table : ImportTable := .empty
  deriving DecidableEq, Inhabited

namespace ImportGraph

/-- One importer with its imports, as far as the filter allows. -/
def addModule (filter : ModuleFilter) (table : ImportTable)
    (module : ModulePath × List ModulePath) : ImportTable :=
  if filter.allows module.1.text then
    table.addImports module.1.text ((module.2.map ModulePath.text).filter filter.allows)
  else table

/-- The graph of importers with their imports; importers of the same name are merged. -/
def ofModules (rootName : String) (filter : ModuleFilter)
    (modules : List (ModulePath × List ModulePath)) : ImportGraph :=
  ⟨rootName, filter, modules.foldl (addModule filter) .empty⟩

variable (g : ImportGraph)

def importers : List String := g.table.keys

/-- The importers with what they import, pair by pair, in ascending order. -/
def pairs : List (String × String) :=
  g.table.entries.flatMap fun entry => entry.2.toList.map (entry.1, ·)

def nodes : NameSet := .ofList (g.importers ++ g.pairs.map (·.2))

def importsOf? (name : String) : Option NameSet := g.table.find? name

/-- The importers of a module in ascending order. -/
def importersOf (name : String) : List String :=
  (g.table.entries.filter fun entry => entry.2.toList.contains name).map (·.1)

def importerCount : Nat := g.importers.length

def nodeCount : Nat := g.nodes.size

def edgeCount : Nat := g.pairs.length

def isEmpty : Bool := g.nodes.toList.isEmpty

def contains (name : String) : Bool := g.nodes.toList.contains name

/-- The name is the package or lies within it. -/
def isInternal (name : String) : Bool := isWithin name g.rootName

def moduleGraph : IndexedGraph :=
  (GraphBuilder.ofMentions
    (g.nodes.toList.map .node ++ g.pairs.map fun pair => .edge pair.1 pair.2)).graph

/-- The part of the graph that is drawn, with edges from what is imported to the importer. -/
def drawnGraph : IndexedGraph :=
  (GraphBuilder.ofMentions
    (.node g.rootName :: (g.nodes.toList.filter g.isInternal).map .node ++
      (g.pairs.filter fun pair => g.isInternal pair.2).map fun pair => .edge pair.2 pair.1)).graph

end ImportGraph

end ImportAtlas
