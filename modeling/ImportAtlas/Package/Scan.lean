import ImportAtlas.ImportGraph
import ImportAtlas.Package.ModuleFile

/-!
The import graph of a package in a tree of files.

Source files are taken in the order of a walk that does not follow links to directories; a link to
a file stands for that file. The first file that cannot be resolved ends the scan.
-/

namespace ImportAtlas

/-- Why a package has no import graph. -/
inductive PackageError where
  | notDirectory (path : String)
  | notPackage (path : String)
  | file (error : FileError)
  | module (file : Location) (error : ModuleError)
  deriving DecidableEq, Repr

def PackageError.message : PackageError → String
  | notDirectory path => s!"{path} does not exist or is not a directory"
  | notPackage path => s!"{path} is not a Python package (missing __init__.py)"
  | file e => s!"I/O error: {e.message}"
  | module l _ => s!"Failed to analyze {l.text}"

abbrev ResolvedModule := ModulePath × OrderedSet ModulePath

namespace FileTree

/-- The place of a package: the path must lead to a directory that holds the file of a package. -/
def packageRoot (t : FileTree) (here : Location) (path : String) :
    Except PackageError Location :=
  if !t.isDirectory here (.ofText path) then .error (.notDirectory path)
  else if !t.isFile here (.ofText (Path.join path initName.text)) then .error (.notPackage path)
  else (t.resolve here (.ofText path)).mapError .file

/-- The place has the name of a source file, and a file stands there or at the end of its links. -/
def isSourceFile (t : FileTree) (l : Location) : Bool :=
  t.isFile .root l.path && l.name?.any FileName.isSource

/-- The source files within a directory, in the order of a walk. -/
def sourceFiles (t : FileTree) (root : Location) : List Location :=
  (t.within root).filter t.isSourceFile

/-- The modules of the files of a list, or the first file that cannot be resolved. -/
def resolveFiles (t : FileTree) (root : Location) :
    List Location → Except (Location × ModuleError) (List ResolvedModule)
  | [] => .ok []
  | file :: files =>
    match t.resolveFile .root file.path root.path with
    | .error e => .error (file, e)
    | .ok module => (t.resolveFiles root files).map (module :: ·)

def modules (t : FileTree) (root : Location) : Except PackageError (List ResolvedModule) :=
  (t.resolveFiles root (t.sourceFiles root)).mapError fun (file, e) => .module file e

def packageName (root : Location) : String := root.name?.elim "" FileName.text

def graphOf (root : Location) (filter : ModuleFilter) (modules : List ResolvedModule) :
    ImportGraph :=
  .ofModules (packageName root) filter (modules.map fun module => (module.1, module.2.toList))

def importGraph (t : FileTree) (here : Location) (root : Path) (filter : ModuleFilter) :
    Except PackageError ImportGraph := do
  let root ← (t.resolve here root).mapError .file
  return graphOf root filter (← t.modules root)

end FileTree

end ImportAtlas
