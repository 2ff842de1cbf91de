import ImportAtlas.ModulePath
import ImportAtlas.Package.Scan

/-!
Reports of what went wrong: a first line and the chain of its causes.
-/

namespace ImportAtlas

/-- The wording of the error and of what caused it. -/
def ModuleError.chain : ModuleError → List String
  | unreadable e => [(unreadable e).message, e.message]
  | e => [e.message]

def PackageError.chain : PackageError → List String
  | file e => [(file e).message, e.message]
  | module l e => (module l e).message :: e.chain
  | e => [e.message]

namespace CommandLine

/-- A text with everything behind its first line indented. -/
def indented (width : Nat) (text : String) : String :=
  ("\n" ++ String.ofList (List.replicate width ' ')).intercalate
    ((ModulePath.split '\n' text.toList).map String.ofList)

def numberedCauses : (first : Nat) → List String → String
  | _, [] => ""
  | n, cause :: causes =>
    let number := toString n
    let padding := String.ofList (List.replicate (5 - number.length) ' ')
    s!"\n{padding}{number}: {indented 7 cause}" ++ numberedCauses (n + 1) causes

structure Report where
  summary : String
  causes : List String
  deriving DecidableEq, Repr

/-- The text of the report; a cause that stands alone has no number. -/
def Report.text (r : Report) : String :=
  let causes := match r.causes with
    | [] => ""
    | [cause] => "\n\nCaused by:\n    " ++ indented 4 cause
    | causes => "\n\nCaused by:" ++ numberedCauses 0 causes
  s!"Error: {r.summary}{causes}\n"

end CommandLine

end ImportAtlas
