import ImportAtlas.CommandLine.Log
import ImportAtlas.CommandLine.Options
import ImportAtlas.CommandLine.Report
import ImportAtlas.Export.Format
import ImportAtlas.Export.Dot
import ImportAtlas.ImportCycle
import ImportAtlas.Text.Visible

/-!
The program as a function from a tree of files and arguments to what it writes.

The package is checked and scanned before anything is written. The graph then goes to the file that
is asked for or to a temporary one, and is drawn next to it if that is asked for.
-/

namespace ImportAtlas.CommandLine

/-- What the program finds when it is called. -/
structure Environment where
  tree : FileTree
  /-- the working directory -/
  here : Location
  /-- the path of a new temporary file, without its extension -/
  temporary : String
  /-- what is to be shown of the log, if it is set -/
  log : Option String := none
  layout : LayoutProgram := .missing

structure Outcome where
  code : Nat
  stdout : String
  stderr : String
  tree : FileTree

structure Progress where
  tree : FileTree
  stdout : String := ""
  messages : List Message := []

/-- A part of the run, which ends with a report if something goes wrong. -/
abbrev Run := ExceptT Report (StateM Progress)

namespace Run

def log (messages : List Message) : Run Unit :=
  modify fun p => { p with messages := p.messages ++ messages }

/-- Goes on with a result, or ends the run with a report on its error. -/
def orReport {ε α : Type} (result : Except ε α) (summary : String) (causes : ε → List String) :
    Run α :=
  match result with
  | .ok a => return a
  | .error e => throw ⟨summary, causes e⟩

end Run

/-- What is logged of a scan, whose source files are given, up to where it ends. -/
def scanMessages (root : Location) (files : List Location) :
    Except PackageError (List ResolvedModule) → List Message
  | .ok modules =>
    files.map (fun file => ⟨.debug, .scan, s!"Scanning {file.text}"⟩) ++
      [⟨.info, .scan, s!"Scanned {modules.length} source files under {root.text}"⟩]
  | .error e =>
    -- the scan ended at the file that could not be resolved
    let visited := match e with
      | .module file _ => files.takeWhile (· ≠ file) ++ [file]
      | _ => []
    visited.map fun file => ⟨.debug, .scan, s!"Scanning {file.text}"⟩

def graphMessages (modules : List ResolvedModule) (g : ImportGraph) : List Message :=
  let names := (modules.map (·.1.text)).filter fun name => !g.filter.allows name
  names.map (fun name => ⟨.trace, .scan, s!"Filtered out importer {name}"⟩) ++
    [⟨.info, .scan, s!"Built import graph: {g.importerCount} importers, {g.nodeCount} nodes, " ++
      s!"{g.edgeCount} edges"⟩]

def shownNames : Option NameSet → String
  | none => "None"
  | some names => "Some(\x7b" ++ ", ".intercalate (names.toList.map Text.quoted) ++ "\x7d)"

/-- What is logged of a graph before it is written. -/
def findings (g : ImportGraph) : List Message :=
  ⟨.debug, .program, "Include prefixes: " ++ shownNames g.filter.kept ++
      ", exclude prefixes: " ++ shownNames g.filter.dropped⟩ ::
    g.cycles.map fun cycle => ⟨.info, .program, s!"Import cycle: {cycle.text}"⟩

def buildGraph (here : Location) (o : Options) : Run ImportGraph := do
  let tree := (← get).tree
  let root ← Run.orReport (tree.packageRoot here o.root) s!"Invalid package root {o.root}"
    PackageError.chain
  let modules := tree.modules root
  Run.log (scanMessages root (tree.sourceFiles root) modules)
  let modules ← Run.orReport modules s!"Failed to build import graph for {root.text}"
    PackageError.chain
  let g := FileTree.graphOf root o.filter modules
  Run.log (graphMessages modules g)
  Run.log (findings g)
  return g

def outputPath (env : Environment) (o : Options) : String :=
  match o.output with
  | some path => Path.withExtension path o.format.extension
  | none => env.temporary ++ "." ++ o.format.extension

/-- Writes the graph to its file; a temporary file is announced. -/
def writeGraph (env : Environment) (o : Options) (g : ImportGraph) : Run Unit := do
  let path := outputPath env o
  let tree ← Run.orReport ((← get).tree.writeText env.here (.ofText path) (g.exported o.format))
    s!"Failed to write {path}" fun e => [e.message]
  modify fun p => { p with tree }
  if o.output.isNone then modify fun p => { p with stdout := p.stdout ++ s!"file://{path}\n" }
  Run.log [⟨.info, .program, s!"Wrote {o.format.name} output to {path}"⟩]

def drawGraph (env : Environment) (path : String) (g : ImportGraph) : Run Unit := do
  let source := Path.withExtension path Format.dot.extension
  let (tree, result) := (← get).tree.draw env.here env.layout g source
  modify fun p => { p with tree }
  -- the layout program was called if the source could be written
  unless result matches .error (.file _) do
    Run.log [⟨.debug, .drawing, s!"Running dot on {source}"⟩]
  let document ← Run.orReport result s!"Failed to render {source}" DrawingError.chain
  Run.log [⟨.info, .program, s!"Rendered {document}"⟩]

def program (env : Environment) (o : Options) : Run Unit := do
  let g ← buildGraph env.here o
  writeGraph env o g
  if o.render then drawGraph env (outputPath env o) g

/-- What is shown of the log, with warnings about what cannot be understood. -/
def logFilter (env : Environment) (o : Options) : LogFilter × List String :=
  let (f, warnings) := LogFilter.ofText (env.log.getD "warn")
  let rules :=
    if o.quiet then LogFilter.addRule f.rules ⟨"", .error⟩
    else if o.verbose then LogFilter.addRule f.rules ⟨"", .debug⟩
    else f.rules
  ({ f with rules }, warnings)

def runOptions (env : Environment) (o : Options) : Outcome :=
  let (result, progress) := (program env o).run.run { tree := env.tree }
  let (filter, warnings) := logFilter env o
  let shown := (progress.messages.filter filter.shows).map Message.line
  let (code, report) := match result with
    | .ok _ => (0, "")
    | .error r => (1, r.text)
  ⟨code, progress.stdout, String.join warnings ++ String.join shown ++ report, progress.tree⟩

/-- The text that tells how the program is called. -/
def helpText : String := "\n".intercalate [
  "Visualize the import graph of a Python package",
  "",
  "Usage: betsy [OPTIONS] <ROOT>",
  "",
  "Arguments:",
  "  <ROOT>  Package directory to scan (must contain __init__.py)",
  "",
  "Options:",
  "  -o, --output <OUTPUT>    Output file; its extension is replaced by the format's extension",
  "  -I, --include <INCLUDE>  Comma-separated module prefixes to keep",
  "  -X, --exclude <EXCLUDE>  Comma-separated module prefixes to drop",
  "  -f, --format <FORMAT>    Output format: html, json or dot [default: html]",
  "      --render             Also lay the graph out with Graphviz next to the output",
  "  -v, --verbose            Show debug logging",
  "  -q, --quiet              Only log errors",
  "  -h, --help               Print help",
  "  -V, --version            Print version",
  ""]

def run (env : Environment) (arguments : List String) : Outcome :=
  match Options.ofArguments arguments with
  | .ok o => runOptions env o
  | .error .help => ⟨0, helpText, "", env.tree⟩
  | .error .version => ⟨0, "betsy 0.1.0\n", "", env.tree⟩
  | .error e =>
    ⟨2, "", s!"error: {e.message}\n\nUsage: betsy [OPTIONS] <ROOT>\n\n" ++
      "For more information, try '--help'.\n", env.tree⟩

end ImportAtlas.CommandLine
