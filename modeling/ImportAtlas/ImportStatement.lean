import ImportAtlas.ModulePath
import ImportAtlas.Source.Tree

/-!
Import statements: how they are read off a syntax tree and which modules they depend on.

A relative import climbs from the importing module, one segment for each dot. `from . import x`
depends on a module for each name; every other form depends on the module that it names.
-/

namespace ImportAtlas

open Source

/-- An import statement as it is written, aliases left out. -/
inductive ImportStatement where
  /-- `import a.b, c` -/
  | plain (modules : List ModulePath)
  /-- `from ..module import x, y` or `from module import *`; the level counts the dots -/
  | fromModule (level : Nat) (module : ModulePath) (names : List String) (wildcard : Bool)
  deriving DecidableEq, Repr

/-- A relative import that climbs above the top of the importing module. -/
structure ClimbError where
  module : ModulePath
  level : Nat
  base : ModulePath
  deriving DecidableEq, Repr

namespace ImportStatement

def dottedPath (t : Tree) : ModulePath := ⟨t.children.filterMap Tree.name?⟩

/-- The module that an imported name stands for, its alias left out. -/
def importedPath? (t : Tree) : Option ModulePath :=
  match t with
  | .node .dottedName _ _ => some (dottedPath t)
  | .node .aliasedName _ (name :: _) => some (dottedPath name)
  | _ => none

def dotCount (s : String) : Nat := s.toList.count '.'

/-- The level and the name of the module that an import is from. -/
def source (t : Tree) : Nat × ModulePath :=
  match t with
  | .node .relativeModule _ (.token dots :: module) =>
    (dotCount dots.text, (module.head?.map dottedPath).getD .empty)
  | _ => (0, dottedPath t)

def importedNames (parts : List Tree) : List String :=
  (parts.filterMap importedPath?).map ModulePath.text

/-- The statement that a tree is, if it is an import. -/
def ofTree? : Tree → Option ImportStatement
  | .node .importStatement _ parts => some (.plain (parts.filterMap importedPath?))
  | .node .fromImport _ (_ :: module :: parts) =>
    let (level, path) := source module
    some (.fromModule level path (importedNames parts) (parts.any (·.hasKind .wildcard)))
  | .node .futureImport _ parts => some (.fromModule 0 ⟨["__future__"]⟩ (importedNames parts) false)
  | _ => none

/-- The modules that the statement depends on when it stands in the module `base`. -/
def resolve (s : ImportStatement) (base : ModulePath) : Except ClimbError (List ModulePath) :=
  match s with
  | .plain modules => .ok modules
  | .fromModule 0 module _ _ => .ok [module]
  | .fromModule level module names wildcard =>
    match base.ancestor? level with
    | none => .error ⟨module, level, base⟩
    | some anchor =>
      -- names behind dots alone are modules, behind a module they need not be
      if module.isEmpty && !wildcard && !names.isEmpty then
        .ok (names.map fun name => anchor ++ .ofDotted name)
      else .ok [anchor ++ module]

end ImportStatement

end ImportAtlas
