import ImportAtlas.Export.Dot
import ImportAtlas.Export.Page

/-!
The formats in which an import graph is written, and the content of its file in each of them.
-/

namespace ImportAtlas

/-- A format, the page being the usual one. -/
inductive Format where
  | html
  | json
  | dot
  deriving DecidableEq, Repr, Inhabited

namespace Format

def name : Format → String
  | html => "html"
  | json => "json"
  | dot => "dot"

def extension : Format → String
  | html => "html"
  | json => "json"
  | dot => "gv"

/-- The format of a name in any letter case. -/
def ofName? (name : String) : Option Format :=
  match name.toLower with
  | "html" => some html
  | "json" => some json
  | "dot" | "gv" | "graphviz" => some dot
  | _ => none

def unknownMessage (name : String) : String :=
  s!"Unknown export format: '{name}'. Valid formats: html, json, dot"

@[simp] theorem ofName?_name (f : Format) : ofName? f.name = some f := by cases f <;> decide +kernel

end Format

end ImportAtlas

namespace ImportAtlas.ImportGraph

/-- The graph as the content of a file; records end with a line feed. -/
def exported (g : ImportGraph) : Format → String
  | .html => g.page
  | .json => g.json ++ "\n"
  | .dot => g.dot

end ImportAtlas.ImportGraph
