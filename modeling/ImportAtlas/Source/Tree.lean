import ImportAtlas.Source.Position

/-!
The syntax tree of a source text: tokens at the leaves, each with its place and its text, and
nodes for the phrases of the grammar. Tokens stand in the order of the text; blank space and
comments between them are left out.
-/

namespace ImportAtlas.Source

inductive TokenKind where
  /-- an identifier, also a keyword that is used as one -/
  | name
  | keyword
  /-- `True`, `False` and `None` -/
  | constant
  | integer
  | float
  /-- an operator, a bracket or a separator -/
  | symbol
  /-- a piece of a string -/
  | text
  /-- the dots of a relative import, from the first to the last, with all that is between them -/
  | dots
  deriving DecidableEq, Repr

structure Token where
  kind : TokenKind
  position : Position
  text : String
  deriving DecidableEq, Repr

inductive NodeKind where
  -- files and blocks
  | module
  | block
  -- imports
  | importStatement
  | fromImport
  | futureImport
  | relativeModule
  | dottedName
  | aliasedName
  | wildcard
  -- other simple statements
  | printStatement
  | chevron
  | execStatement
  | expressionStatement
  | assignment
  | augmentedAssignment
  | typedTarget
  | assertStatement
  | deleteStatement
  | returnStatement
  | raiseStatement
  | passStatement
  | breakStatement
  | continueStatement
  | globalStatement
  | nonlocalStatement
  | typeAlias
  -- compound statements and their clauses
  | ifStatement
  | elifClause
  | elseClause
  | whileStatement
  | forStatement
  | tryStatement
  | exceptClause
  | exceptGroupClause
  | finallyClause
  | withStatement
  | functionDefinition
  | classDefinition
  | decoratedDefinition
  | decorator
  | matchStatement
  | caseClause
  | casePattern
  -- parameters and types
  | parameters
  | parameter
  | typeParameters
  | typeExpression
  -- expressions
  | yieldExpression
  | conditional
  | booleanOperation
  | notOperation
  | asPattern
  | lambda
  | namedExpression
  | operation
  | unaryOperation
  | await
  | attribute
  | subscript
  | slice
  | call
  | keywordArgument
  | splat
  | unpacking
  | parenthesized
  | tuple
  | list
  | set
  | dictionary
  | pair
  | comprehension
  | forClause
  | ifClause
  | string
  | strings
  | interpolation
  | formatSpec
  deriving DecidableEq, Repr

inductive Tree where
  | token (token : Token)
  | node (kind : NodeKind) (position : Position) (children : List Tree)
  deriving Repr

namespace Tree

def position : Tree → Position
  | token t => t.position
  | node _ p _ => p

def children : Tree → List Tree
  | token _ => []
  | node _ _ cs => cs

def kind? : Tree → Option NodeKind
  | token _ => none
  | node k _ _ => some k

def hasKind (t : Tree) (kind : NodeKind) : Bool := t.kind? == some kind

def isSymbol (t : Tree) (text : String) : Bool :=
  match t with
  | token t => t.kind == .symbol && t.text == text
  | node .. => false

def isSomeSymbol : Tree → Bool
  | token t => t.kind == .symbol
  | node .. => false

def isName : Tree → Bool
  | token t => t.kind == .name
  | node .. => false

def name? : Tree → Option String
  | token t => if t.kind = .name then some t.text else none
  | node .. => none

mutual

/-- The subtrees in source order, each before its own subtrees; the tree itself comes first. -/
def preorder : Tree → List Tree
  | token t => [token t]
  | node k p cs => node k p cs :: preorderAll cs

def preorderAll : List Tree → List Tree
  | [] => []
  | t :: ts => preorder t ++ preorderAll ts

end

mutual

/-- The tree may stand at the left of an assignment. -/
def isTarget : Tree → Bool
  | token t => t.kind == .name
  | node .subscript _ _ | node .attribute _ _ | node .splat _ _ => true
  | node .tuple _ cs | node .list _ cs | node .parenthesized _ cs => areTargets cs
  | node .. => false

/-- Every tree of the list may stand at the left of an assignment, separators apart. -/
def areTargets : List Tree → Bool
  | [] => true
  | t :: ts => (t.isSomeSymbol || isTarget t) && areTargets ts

end

end Tree

end ImportAtlas.Source
