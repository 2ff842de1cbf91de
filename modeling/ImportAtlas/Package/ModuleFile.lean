import ImportAtlas.Analysis
import ImportAtlas.Files.FileTree

/-!
Module files: which files are modules, by what paths, and what they import.

The path of a module is the way to its file from the directory that holds the package, without the
extension; the file that stands for a directory adds nothing to the path of that directory.
-/

namespace ImportAtlas

def FileName.isSource (n : FileName) : Bool := n.extension? == some "py"

def Path.isSource (text : String) : Bool := (fileName? text).any FileName.isSource

/-- The name of the file that makes a directory a package. -/
def initName : FileName := ⟨"__init__.py", by decide +kernel⟩

def initStem : String := "__init__"

/-- Why a file has no imports to tell. -/
inductive ModuleError where
  | unreadable (error : FileError)
  | outside (file root : Location)
  | source (error : SourceError)
  deriving DecidableEq, Repr

def ModuleError.message : ModuleError → String
  | unreadable e => s!"Failed to read file: {e.message}"
  | outside file root => s!"{file.text} is not located under {root.text}"
  | source e => e.message

/-- The names on the way to a file, the last one cut to its stem. -/
def ModulePath.ofNames : List FileName → ModulePath
  | [] => .empty
  | [name] => if name.stem = initStem then .empty else ⟨[name.stem]⟩
  | name :: names => ⟨name.text :: (ofNames names).segments⟩

/-- The path of a file as a module of the package at `root`, which lies beside or around it. -/
def ModulePath.ofLocation (file root : Location) : Except ModuleError ModulePath :=
  if root = .root then .error (.outside file root)
  else
    match file.within? root.parent with
    | some names => .ok (ofNames names)
    | none => .error (.outside file root)

namespace FileTree

/-- The path of a file as a module of the package at `root`, links followed in both paths. -/
def moduleAt (t : FileTree) (here : Location) (file root : Path) :
    Except ModuleError ModulePath := do
  let file ← (t.resolve here file).mapError .unreadable
  let root ← (t.resolve here root).mapError .unreadable
  ModulePath.ofLocation file root

/-- The path of a file as a module of the package at `root`, and what it imports. -/
def resolveFile (t : FileTree) (here : Location) (file root : Path) :
    Except ModuleError (ModulePath × OrderedSet ModulePath) := do
  let module ← t.moduleAt here file root
  let text ← (t.readText here file).mapError .unreadable
  let imports ← (resolveSource text module).mapError .source
  return (module, imports)

end FileTree

end ImportAtlas
