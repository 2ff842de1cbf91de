import ImportAtlas.ImportStatement
import ImportAtlas.OrderedSet
import ImportAtlas.Source.Fault

/-!
The imports of a source text.

The tree of the text is walked in source order. The first offence ends the walk: a construct of
the language's second version, or a relative import that climbs too far. An import statement is
not searched further.
-/

namespace ImportAtlas

open Source

/-- Why the imports of a text have no answer. -/
inductive SourceError where
  /-- the text is no program, or holds a construct that programs no longer have -/
  | syntaxError (module : ModulePath) (position : Position)
  | climb (error : ClimbError)
  deriving DecidableEq, Repr

namespace SourceError

def message : SourceError → String
  | syntaxError module p =>
    s!"Syntax error in module '{module.text}' at line {p.line}, column {p.column}"
  | climb e =>
    s!"Invalid relative import from '{e.module.text}' at level {e.level} (base {e.base.text})"

end SourceError

namespace Source.Tree

/-- A clause that catches an error under a name behind a comma. -/
def catchesPair (parts : List Tree) : Bool :=
  (parts.takeWhile (!·.isSymbol ":")).any (·.isSymbol ",")

/-- A construct that only the second version of the language has. -/
def isLegacy : Tree → Bool
  | node .printStatement _ _ | node .execStatement _ _ => true
  | node .exceptClause _ parts => catchesPair parts
  | node .. => false
  | token t =>
    (t.kind == .symbol && t.text == "<>") ||
      (t.kind == .integer && (t.text.endsWith "l" || t.text.endsWith "L"))

mutual

/-- The modules that a tree depends on, in source order, or its first offence. -/
def targets (base : ModulePath) : Tree → Except SourceError (List ModulePath)
  | token t =>
    if (token t).isLegacy then .error (.syntaxError base t.position) else .ok []
  | node k p cs =>
    if (node k p cs).isLegacy then .error (.syntaxError base p)
    else
      match ImportStatement.ofTree? (node k p cs) with
      -- what stands within an import statement is not searched
      | some s => (s.resolve base).mapError .climb
      | none => allTargets base cs

def allTargets (base : ModulePath) : List Tree → Except SourceError (List ModulePath)
  | [] => .ok []
  | t :: ts => do
    let first ← targets base t
    let others ← allTargets base ts
    return first ++ others

end

def importStatements (t : Tree) : List ImportStatement :=
  t.preorder.filterMap ImportStatement.ofTree?

end Source.Tree

/-- The modules that a source text depends on when it is the module `base`. -/
def resolveSource (source : String) (base : ModulePath) :
    Except SourceError (OrderedSet ModulePath) :=
  match Tree.ofSource source with
  | .error p => .error (.syntaxError base (faultPosition source p))
  | .ok tree => (tree.targets base).map .ofList

/-- The import statements of a source text, unless it is no program. -/
def statementsOf? (source : String) : Option (List ImportStatement) :=
  match Tree.ofSource source with
  | .error _ => none
  | .ok tree => some tree.importStatements

end ImportAtlas
