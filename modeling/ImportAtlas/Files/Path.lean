import ImportAtlas.Files.Location
import ImportAtlas.ModulePath

/-!
Paths as they are typed.

A path is a way through directories, from the root or from wherever one is. Its file name is its
last name if nothing but slashes and single dots follow.
-/

namespace ImportAtlas

inductive Step where
  /-- a single dot, or a slash at the end: the place must be a directory -/
  | stay (isSlash : Bool)
  | up
  | down (name : FileName)
  /-- a name that no entry can have -/
  | broken
  deriving DecidableEq, Repr

/-- A way through directories; the relative path without steps is the empty text. -/
structure Path where
  isAbsolute : Bool
  steps : List Step
  deriving DecidableEq, Repr

def Location.path (l : Location) : Path := ⟨true, l.names.map .down⟩

namespace Path

def stepOf (piece : String) : Option Step :=
  if piece = "" then none
  else if piece = "." then some (.stay false)
  else if piece = ".." then some .up
  else if piece.toList.contains '\x00' then some .broken
  else (FileName.ofText? piece).map .down

def pieces (text : String) : List String :=
  (ModulePath.split '/' text.toList).map String.ofList

def ofText (text : String) : Path :=
  let steps := (pieces text).filterMap stepOf
  let ending := if text.toList.getLast? = some '/' then [.stay true] else []
  ⟨text.toList.head? = some '/', steps ++ ending⟩

/-- The place to which a path leads from `here` if there are no links on the way. -/
def place (here : Location) (p : Path) : Location :=
  p.steps.foldl
    (fun l step =>
      match step with
      | .down name => l.child name
      | .up => l.parent
      | .stay _ | .broken => l)
    (if p.isAbsolute then .root else here)

/-- The pieces up to the last one that is neither empty nor a single dot. -/
def namedPieces (text : String) : List String :=
  ((pieces text).reverse.dropWhile fun piece => piece = "" || piece = ".").reverse

def fileName? (text : String) : Option FileName := (namedPieces text).getLast?.bind FileName.ofText?

/-- The path with another extension, or itself if it has no file name. -/
def withExtension (text extension : String) : String :=
  match fileName? text with
  | none => text
  | some name => "/".intercalate ((namedPieces text).dropLast ++ [name.stem ++ "." ++ extension])

/-- The path with a further part behind a slash, which is not doubled. -/
def join (text part : String) : String :=
  if text = "" || text.toList.getLast? = some '/' then text ++ part else text ++ "/" ++ part

end Path

end ImportAtlas
